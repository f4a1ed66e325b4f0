import Shiba.Publication.Delivery

set_option autoImplicit false

namespace Shiba.Lifecycle

open SerialTable Transition Shiba.Ingress Shiba.Stream Shiba.Publication

variable {Payload Row : Type}

-- A Scan stage of a plan; its only input port is 0.
structure ScanStage where
  stageId : Nat
  sourceOid : Oid
deriving DecidableEq, Repr

structure Dataflow where
  resultOid : Oid
  activationLsn : Lsn
  active : Bool := true
  scans : List ScanStage
deriving DecidableEq, Repr

-- The BTreeSet of a plan's Scan sources, which is also its dataflow_sources.
def sourceOids (scans : List ScanStage) : List Oid := ((scans.map ScanStage.sourceOid).dedup).insertionSort (· ≤ ·)

structure Database (Payload Row : Type) where
  catalog : SourceCatalog Payload Row
  slot : Option LogicalSlot := none
  runtimeActive : Bool := false
  dataflows : List Dataflow := []

def Database.withIngress (db : Database Payload Row) (ingress : IngressCatalog Payload) : Database Payload Row :=
  { db with catalog := ⟨ingress, db.catalog.streams⟩ }

def activeGeneration (db : IngressCatalog Payload) (slotName : String) : Option ReplayState :=
  db.replayState.rows.find? fun replay => replay.slotName = slotName ∧ replay.state = .active

section Activation

-- What activation reads of the server: the two settings, and where a slot
-- that it creates starts.
structure ActivationFacts where
  conninfo : Bool
  publication : Bool
  server : ServerFacts
  consistentLsn : Lsn

def createdSlot (consistentLsn : Lsn) : LogicalSlot := ⟨true, true, some consistentLsn⟩

def activateDatabase (slotName : String) (db : Database Payload Row) (facts : ActivationFacts) :
    Except Fault (Database Payload Row) :=
  if !facts.conninfo then
    .error (.raised "55000" "shiba.replication_conninfo must be configured before activation")
  else if !facts.publication then
    .error (.raised "55000"
      "publication shiba_publication is missing; recreate the extension-owned publication before activation")
  else
    let slotCreated := db.slot.isNone
    let slot := db.slot.getD (createdSlot facts.consistentLsn)
    (ensureIngressGeneration db.catalog.ingress facts.server (some slot) slotName slotCreated).map fun ensured =>
      { catalog := ⟨ensured.1, db.catalog.streams⟩
        slot := some slot
        runtimeActive := true
        dataflows := db.dataflows.map fun dataflow => { dataflow with active := true } }

def producedIn (slotGeneration : Nat) (stream : EffectStream Row) : Bool :=
  match stream.producer with
  | .source generation _ => decide (generation = slotGeneration)
  | .operator _ _ => false

def dropGeneration (catalog : SourceCatalog Payload Row) (slotGeneration : Nat) : SourceCatalog Payload Row :=
  ⟨{ catalog.ingress with
      transactions := catalog.ingress.transactions.deleteWhere fun txn => decide (txn.slotGeneration = slotGeneration) },
    catalog.streams.deleteWhere (producedIn slotGeneration)⟩

-- `stopped` says whether the Runtime and its walsender went away in time.
def deactivateDatabase (slotName : String) (db : Database Payload Row) (stopped : Bool) :
    Except Fault (Database Payload Row) :=
  if !db.dataflows.isEmpty then .error (.failed "drop all Shiba result tables before deactivation")
  else if !stopped then .error (.raised "55P03" "timed out stopping the Shiba Runtime")
  else
    let cleared := match activeGeneration db.catalog.ingress slotName with
      | some replay => dropGeneration db.catalog replay.slotGeneration
      | none => db.catalog
    .ok { catalog := ⟨retireIngressGeneration cleared.ingress slotName, cleared.streams⟩
          slot := none
          runtimeActive := false
          dataflows := db.dataflows }

end Activation

section Registration

structure Registration where
  resultOid : Oid
  activationLsn : Lsn
  scans : List ScanStage
  targetRows : Nat
  targetBytes : Nat

-- ensure_source_stream for each source, with the stream of each.
def provisionSources (slotGeneration targetRows targetBytes : Nat) (catalog : SourceCatalog Payload Row) :
    List Oid → Except Fault (SourceCatalog Payload Row × List (Oid × Nat))
  | [] => .ok (catalog, [])
  | source :: rest => do
      let ensured ← ensureSourceStream catalog slotGeneration source targetRows targetBytes
      let provisioned ← provisionSources slotGeneration targetRows targetBytes ensured.1 rest
      return (provisioned.1, (source, ensured.2) :: provisioned.2)

-- The checkpoints of the plan's stages are inserted before its inputs are attached.
def attachInputs (resultOid : Oid) (activationLsn : Lsn) (streams : List (Oid × Nat))
    (catalog : SourceCatalog Payload Row) : List ScanStage → Except Fault (SourceCatalog Payload Row)
  | [] => .ok catalog
  | scan :: rest =>
      match streams.find? fun entry => decide (entry.1 = scan.sourceOid) with
      | none => .error (.failed "Scan source stream was not provisioned")
      | some entry => do
          let attached ← streamStep catalog (.attach entry.2 true ⟨resultOid, scan.stageId, 0⟩ activationLsn)
          attachInputs resultOid activationLsn streams attached rest

-- _begin_dataflow_registration and register.
def register (slotName : String) (db : Database Payload Row) (request : Registration) :
    Except Fault (Database Payload Row) :=
  if !db.runtimeActive && db.slot.isNone then
    .error (.raised "55000" "Shiba is deactivated; call shiba.activate() before registering a result table")
  else if db.dataflows.any fun dataflow => decide (dataflow.resultOid = request.resultOid) then
    .error (.failed "result is not one new permanent table in schema shiba")
  else if request.scans.isEmpty || request.scans.any fun scan => decide (scan.sourceOid = 0) then
    .error (.failed "dataflow has no valid Scan source")
  else
    match activeGeneration db.catalog.ingress slotName with
    | none => .error (.failed "active replication-slot generation returned 0 rows, expected 1")
    | some replay => do
        let provisioned ← provisionSources replay.slotGeneration request.targetRows request.targetBytes db.catalog
          (sourceOids request.scans)
        let attached ← attachInputs request.resultOid request.activationLsn provisioned.2 provisioned.1 request.scans
        return { db with
          catalog := attached
          dataflows := db.dataflows ++ [⟨request.resultOid, request.activationLsn, true, request.scans⟩] }

end Registration

section Drop

def inActiveGeneration (db : IngressCatalog Payload) (sourceOid : Oid) : Producer → Bool
  | .source generation source => decide (source = sourceOid) && (db.activeReplay generation).isSome
  | .operator _ _ => false

def detachUnusedSource (db : Database Payload Row) (sourceOid : Oid) : Database Payload Row :=
  if db.dataflows.any fun dataflow => decide (sourceOid ∈ sourceOids dataflow.scans) then db
  else
    { db with
      catalog := ⟨db.catalog.ingress, db.catalog.streams.deleteWhere fun stream =>
        inActiveGeneration db.catalog.ingress sourceOid stream.producer && stream.consumers.isEmpty⟩ }

theorem drop_result_id (resultOid : Oid) (stream : EffectStream Row) :
    (dropResult resultOid stream).streamId = stream.streamId := rfl

-- cleanup_dropped_dataflow: the consumers cascade from the dataflow.
def dropTable (db : Database Payload Row) (resultOid : Oid) : Database Payload Row :=
  match db.dataflows.find? fun dataflow => decide (dataflow.resultOid = resultOid) with
  | none => db
  | some dropped =>
      let kept : Database Payload Row :=
        { db with
          catalog := ⟨db.catalog.ingress,
            db.catalog.streams.updateWhere (fun _ => true) (dropResult resultOid) (drop_result_id resultOid)⟩
          dataflows := db.dataflows.filter fun dataflow => decide (dataflow.resultOid ≠ resultOid) }
      (sourceOids dropped.scans).foldl detachUnusedSource kept

end Drop

section Collection

def deadGeneration (db : Database Payload Row) (due : Nat → Bool) (replay : ReplayState) : Bool :=
  decide (replay.state = .retired) && due replay.slotGeneration
    && !db.catalog.ingress.transactions.rows.any (fun txn => decide (txn.slotGeneration = replay.slotGeneration))
    && !db.catalog.streams.rows.any (producedIn replay.slotGeneration)

-- ORDER BY slot_generation LIMIT 8.
def deadGenerations (db : Database Payload Row) (due : Nat → Bool) : List Nat :=
  (((db.catalog.ingress.replayState.rows.filter (deadGeneration db due)).map ReplayState.slotGeneration).insertionSort
    (· ≤ ·)).take 8

def collectGenerations (db : Database Payload Row) (due : Nat → Bool) : Database Payload Row :=
  let dead := deadGenerations db due
  db.withIngress { db.catalog.ingress with
    replayState := db.catalog.ingress.replayState.deleteWhere fun replay => decide (replay.slotGeneration ∈ dead) }

-- gc_change_log. It needs an active generation, which is the newest one, so a
-- collected generation is never max(slot_generation).
def collectChangeLog (db : Database Payload Row) (slotGeneration : Nat) (dueTransactions dueGenerations : Nat → Bool)
    (maxTransactions : Nat) : Except Fault (Database Payload Row) := do
  let reconciled ← reconcileIngressReplaySafe db.catalog.ingress db.slot slotGeneration
  let collected ← gcChangeLog reconciled.1 dueTransactions maxTransactions
  return collectGenerations (db.withIngress collected.1) dueGenerations

end Collection

inductive LifecycleCall (Payload : Type) where
  | activate (facts : ActivationFacts)
  | deactivate (stopped : Bool)
  | register (request : Registration)
  | dropTable (resultOid : Oid)
  | slotMoved (slot : Option LogicalSlot)
  | bootstrap (server : ServerFacts)
  | persist (settings : AdmissionSettings Payload) (slotGeneration : Nat) (batch : IngressBatch Payload)
  | publish (slotGeneration : Nat)
  | advanceFrontier (slotGeneration : Nat)
  | recordFeedback (slotGeneration : Nat) (lsn : Lsn)
  | consume (streamId : Nat) (consumer : ConsumerKey) (move : ConsumerAdvance)
  | collectChangeLog (slotGeneration : Nat) (dueTransactions dueGenerations : Nat → Bool) (maxTransactions : Nat)
  | collectStream (streamId chunkLimit rowLimit byteLimit : Nat)

-- Each call is one transaction; a call that fails is rolled back. `slotMoved`
-- is whatever happens to the slot outside, its loss and its replacement included.
def lifecycleStep [DecidableEq Payload] (codec : PayloadCodec Payload) (rowCodec : RowCodec Payload Row) (slotName : String)
    (db : Database Payload Row) : LifecycleCall Payload → Except Fault (Database Payload Row)
  | .activate facts => activateDatabase slotName db facts
  | .deactivate stopped => deactivateDatabase slotName db stopped
  | .register request => Lifecycle.register slotName db request
  | .dropTable resultOid => .ok (Lifecycle.dropTable db resultOid)
  | .slotMoved slot => .ok { db with slot := slot }
  | .bootstrap server => (bootstrapIngress db.catalog.ingress server db.slot slotName).map fun started =>
      db.withIngress started.1
  | .persist settings slotGeneration batch =>
      (persistIngressBatch codec settings db.catalog.ingress slotGeneration batch).map db.withIngress
  | .publish slotGeneration => (publishSourceBatch rowCodec db.catalog slotGeneration).map fun published =>
      { db with catalog := published.1 }
  | .advanceFrontier slotGeneration =>
      (advanceIngressPublicationFrontier db.catalog.ingress slotGeneration).map fun advanced => db.withIngress advanced.1
  | .recordFeedback slotGeneration lsn =>
      (recordIngressFeedback db.catalog.ingress slotGeneration lsn).map fun recorded => db.withIngress recorded.1
  | .consume streamId consumer move =>
      (streamStep db.catalog (.advance streamId consumer move)).map fun catalog => { db with catalog := catalog }
  | .collectChangeLog slotGeneration dueTransactions dueGenerations maxTransactions =>
      Lifecycle.collectChangeLog db slotGeneration dueTransactions dueGenerations maxTransactions
  | .collectStream streamId chunkLimit rowLimit byteLimit =>
      (streamStep db.catalog (.collect streamId chunkLimit rowLimit byteLimit)).map fun catalog =>
        { db with catalog := catalog }

-- The extension as it was created.
def installedDatabase : Database Payload Row := { catalog := emptyCatalog }

-- What a dataflow is for: its Scan stage reads the source's stream of the
-- active generation, from its own activation on, and no other stream.
structure FedBy (db : Database Payload Row) (dataflow : Dataflow) (scan : ScanStage) (replay : ReplayState)
    (stream : EffectStream Row) : Prop where
  generation : replay ∈ db.catalog.ingress.replayState.rows ∧ replay.state = .active
  onlyGeneration : ∀ other ∈ db.catalog.ingress.replayState.rows, other.state = .active → other = replay
  source : sourceStream db.catalog.streams replay.slotGeneration scan.sourceOid = some stream
  consumer : ∃ consumer ∈ stream.consumers,
    consumer.consumer = ⟨dataflow.resultOid, scan.stageId, 0⟩ ∧ consumer.activationLsn = dataflow.activationLsn
  onlyStream : ∀ other ∈ db.catalog.streams.rows, ∀ consumer ∈ other.consumers,
    consumer.consumer = ⟨dataflow.resultOid, scan.stageId, 0⟩ → other = stream

def ActiveFed (db : Database Payload Row) : Prop :=
  db.runtimeActive = true → ∀ dataflow ∈ db.dataflows, dataflow.active = true → ∀ scan ∈ dataflow.scans,
    ∃ replay stream, FedBy db dataflow scan replay stream

-- Publication discards no change of a source that was committed after the dataflow's activation.
def NothingLost (rowCodec : RowCodec Payload Row) (db : Database Payload Row) : Prop :=
  db.runtimeActive = true → ∀ dataflow ∈ db.dataflows, dataflow.active = true → ∀ scan ∈ dataflow.scans,
    ∀ slotGeneration after publication, publishSourceBatch rowCodec db.catalog slotGeneration = .ok (after, publication) →
      publication.sourceOid = some scan.sourceOid → (∃ final, publication.finalLsn = some final ∧
        dataflow.activationLsn < final) → publication.outcome ≠ .discarded

-- Activation does not have to create the slot while a result table exists.
def Covered (db : Database Payload Row) : LifecycleCall Payload → Prop
  | .activate _ => db.slot.isSome = true ∨ db.dataflows = []
  | _ => True

end Shiba.Lifecycle
