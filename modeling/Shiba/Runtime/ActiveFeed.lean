import Shiba.Runtime.Wiring

set_option autoImplicit false

namespace Shiba.Lifecycle

open SerialTable Transition Shiba.Ingress Shiba.Stream Shiba.Publication

variable {Payload Row : Type}

theorem attach_inputs_wiring {resultOid : Oid} {activationLsn : Lsn} {entries : List (Oid × Nat)} {slotGeneration : Nat}
    (scans : List ScanStage) (catalog : SourceCatalog Payload Row) {after : SourceCatalog Payload Row} (single : Single (outlines catalog.streams))
    (placed : ∀ entry ∈ entries, Provisioned (outlines catalog.streams) slotGeneration entry)
    (ok : attachInputs resultOid activationLsn entries catalog scans = .ok after) :
    after.ingress = catalog.ingress ∧ Single (outlines after.streams) ∧
      (∀ producer key lsn, Reads (outlines catalog.streams) producer key lsn → Reads (outlines after.streams) producer key lsn) ∧
      ∀ scan ∈ scans, Reads (outlines after.streams) (.source slotGeneration scan.sourceOid) ⟨resultOid, scan.stageId, 0⟩
        activationLsn := by
  induction scans generalizing catalog with
  | nil =>
      cases ok
      exact ⟨rfl, single, fun _ _ _ reads => reads, fun scan wrong => by cases wrong⟩
  | cons scan rest ih =>
      rw [attachInputs] at ok
      split at ok
      · cases ok
      · rename_i entry found
        obtain ⟨joinedCatalog, attached, ok⟩ := bind_ok_iff.mp ok
        have named : entry.1 = scan.sourceOid := by simpa using List.find?_some found
        have member := List.mem_of_find?_eq_some found
        obtain ⟨sameIngress, joinedSingle, wiring, read⟩ := attach_wiring single (placed entry member) attached
        have stillPlaced : ∀ other ∈ entries, Provisioned (outlines joinedCatalog.streams) slotGeneration other := by
          intro other otherMember
          obtain ⟨stream, streamMember, sameId, producer⟩ := placed other otherMember
          rw [wiring]
          exact ⟨joined entry.2 _ stream, List.mem_map_of_mem streamMember, by rw [joined_id, sameId],
            by rw [joined_producer, producer]⟩
        have grows : ∀ producer key lsn, Reads (outlines catalog.streams) producer key lsn →
            Reads (outlines joinedCatalog.streams) producer key lsn := by
          intro producer key lsn reads
          obtain ⟨stream, streamMember, isProducer, reader⟩ := reads
          rw [wiring]
          exact ⟨joined entry.2 _ stream, List.mem_map_of_mem streamMember, by rw [joined_producer, isProducer],
            (joined_readers _ _ _ _).mpr (.inl reader)⟩
        obtain ⟨laterIngress, laterSingle, laterGrows, laterRead⟩ := ih joinedCatalog joinedSingle stillPlaced ok
        refine ⟨laterIngress.trans sameIngress, laterSingle, ?_, ?_⟩
        · intro producer key lsn reads
          exact laterGrows producer key lsn (grows producer key lsn reads)
        · intro other otherMember
          rcases List.mem_cons.mp otherMember with rfl | later
          · rw [← named]
            exact laterGrows _ _ _ read
          · exact laterRead other later

section Steps

variable {slotName : String} (db after : Database Payload Row) (wired : Wired slotName db)

include wired

theorem wired_same (sameGenerations : generations after.catalog.ingress = generations db.catalog.ingress)
    (sameStreams : outlines after.catalog.streams = outlines db.catalog.streams)
    (sameDataflows : after.dataflows = db.dataflows) : Wired slotName after := by
  constructor
  · rw [sameGenerations]
    exact wired.oneActive
  · rw [sameStreams]
    exact wired.single
  · rw [sameGenerations, sameStreams, sameDataflows]
    exact wired.fed

theorem wired_activate (facts : ActivationFacts) (covered : db.slot.isSome = true ∨ db.dataflows = [])
    (ok : activateDatabase slotName db facts = .ok after) : Wired slotName after := by
  unfold activateDatabase at ok
  split at ok
  · cases ok
  · split at ok
    · cases ok
    · obtain ⟨⟨ingress, slotGeneration⟩, ensured, rfl⟩ := except_map_ok ok
      obtain ⟨one, kept⟩ := ensure_generation_effect wired.oneActive ensured
      refine ⟨one, wired.single, ?_⟩
      intro dataflow member scan scanMember
      obtain ⟨before, beforeMember, rfl⟩ := List.mem_map.mp member
      obtain ⟨entry, known, active, reads⟩ := wired.fed before beforeMember scan scanMember
      rcases covered with present | none
      · have unforced : db.slot.isNone = false := by simpa using present
        obtain rfl := kept unforced ⟨entry, known, active⟩
        exact ⟨entry, known, active, reads⟩
      · rw [none] at beforeMember
        cases beforeMember

theorem wired_bootstrap (server : ServerFacts) (session : Session) (ingress : IngressCatalog Payload)
    (ok : bootstrapIngress db.catalog.ingress server db.slot slotName = .ok (ingress, session)) :
    Wired slotName (db.withIngress ingress) := by
  unfold bootstrapIngress at ok
  obtain ⟨⟨ensured, slotGeneration⟩, ensures, ok⟩ := bind_ok_iff.mp ok
  obtain ⟨⟨reconciled, count⟩, reconciles, ok⟩ := bind_ok_iff.mp ok
  have same : reconciled = ingress := by
    cases found : reconciled.activeReplay slotGeneration with
    | none =>
        simp only [found] at ok
        cases ok
    | some replay =>
        simp only [found] at ok
        exact (Prod.mk.inj (Except.ok.inj ok)).1
  obtain ⟨one, kept⟩ := ensure_generation_effect wired.oneActive ensures
  have known := generations_reconcile reconciles
  rw [← same]
  refine ⟨?_, wired.single, ?_⟩
  · change OneActive slotName (generations reconciled)
    rw [known]
    exact one
  · intro dataflow member scan scanMember
    obtain ⟨entry, entryKnown, active, reads⟩ := wired.fed dataflow member scan scanMember
    have unchanged := kept rfl ⟨entry, entryKnown, active⟩
    refine ⟨entry, ?_, active, reads⟩
    change entry ∈ generations reconciled
    rw [known, unchanged]
    exact entryKnown

theorem wired_deactivate (stopped : Bool) (ok : deactivateDatabase slotName db stopped = .ok after) :
    Wired slotName after := by
  unfold deactivateDatabase at ok
  split at ok
  · cases ok
  · rename_i undropped
    have none : db.dataflows = [] := by simpa using undropped
    split at ok
    · cases ok
    · cases ok
      have cleared : ∀ catalog : SourceCatalog Payload Row, catalog.ingress.replayState = db.catalog.ingress.replayState →
          OneActive slotName (generations (retireIngressGeneration catalog.ingress slotName)) := by
        intro catalog same
        apply one_active_within wired.oneActive
        intro entry member
        obtain ⟨row, updated, rfl⟩ := List.mem_map.mp member
        obtain ⟨before, old, rfl⟩ := (Table.mem_update_where _ _ retireReplay (fun _ => rfl) row).mp updated
        rw [same] at old
        split
        · have named : before.slotName = slotName := wired.oneActive.named _ (List.mem_map_of_mem old)
          exact .inr ⟨named, rfl⟩
        · exact .inl (List.mem_map_of_mem old)
      constructor
      · split
        · exact cleared _ rfl
        · exact cleared _ rfl
      · split
        · apply single_within _ _ wired.single
          intro entry member
          obtain ⟨row, kept, rfl⟩ := List.mem_map.mp member
          exact List.mem_map_of_mem ((Table.mem_delete_where _ _ row).mp kept).1
        · exact wired.single
      · intro dataflow member
        change dataflow ∈ db.dataflows at member
        rw [none] at member
        cases member

theorem wired_register (request : Registration) (ok : register slotName db request = .ok after) : Wired slotName after := by
  unfold register at ok
  split at ok
  · cases ok
  · split at ok
    · cases ok
    · split at ok
      · cases ok
      · split at ok
        · cases ok
        · rename_i replay found
          obtain ⟨⟨provisioned, entries⟩, provisions, ok⟩ := bind_ok_iff.mp ok
          obtain ⟨attached, attaches, ok⟩ := bind_ok_iff.mp ok
          cases ok
          obtain ⟨sameIngress, single, grows, placed⟩ := provision_wiring _ db.catalog entries wired.single provisions
          obtain ⟨attachedIngress, attachedSingle, readsGrow, reads⟩ := attach_inputs_wiring request.scans provisioned single placed attaches
          obtain ⟨row, active⟩ := active_generation_some replay found
          have sameGenerations : generations attached.ingress = generations db.catalog.ingress := by
            rw [attachedIngress, sameIngress]
          refine ⟨?_, attachedSingle, ?_⟩
          · change OneActive slotName (generations attached.ingress)
            rw [sameGenerations]
            exact wired.oneActive
          · intro dataflow member scan scanMember
            change ∃ entry ∈ generations attached.ingress, _
            rw [sameGenerations]
            rcases List.mem_append.mp member with old | new
            · obtain ⟨entry, known, isActive, stream, streamMember, fed⟩ := wired.fed dataflow old scan scanMember
              exact ⟨entry, known, isActive, readsGrow _ _ _ ⟨stream, grows stream streamMember, fed⟩⟩
            · cases List.mem_singleton.mp new
              exact ⟨generation replay, List.mem_map_of_mem row, active, reads scan scanMember⟩

theorem wired_detach (sourceOid : Oid) : Wired slotName (detachUnusedSource db sourceOid) := by
  unfold detachUnusedSource
  split
  · exact wired
  · refine ⟨wired.oneActive, ?_, ?_⟩
    · apply single_within _ _ wired.single
      intro entry member
      obtain ⟨row, kept, rfl⟩ := List.mem_map.mp member
      exact List.mem_map_of_mem ((Table.mem_delete_where _ _ row).mp kept).1
    · intro dataflow member scan scanMember
      obtain ⟨entry, known, active, stream, streamMember, producer, read⟩ := wired.fed dataflow member scan scanMember
      refine ⟨entry, known, active, stream, ?_, producer, read⟩
      obtain ⟨row, rowMember, rfl⟩ := List.mem_map.mp streamMember
      apply List.mem_map_of_mem
      refine (Table.mem_delete_where _ _ row).mpr ⟨rowMember, ?_⟩
      -- a stream that is read is never a stream to delete
      have watched : row.consumers ≠ [] := by
        intro empty
        change _ ∈ row.consumers.map reader at read
        rw [empty] at read
        cases read
      simp [watched]

theorem wired_detach_all (sources : List Oid) : Wired slotName (sources.foldl detachUnusedSource db) := by
  induction sources generalizing db with
  | nil => exact wired
  | cons source rest ih => exact ih (detachUnusedSource db source) (wired_detach db wired source)

theorem wired_drop (resultOid : Oid) : Wired slotName (dropTable db resultOid) := by
  unfold dropTable
  split
  · exact wired
  · apply wired_detach_all
    have unread : ∀ entry ∈ outlines (db.catalog.streams.updateWhere (fun _ => true) (dropResult resultOid) (fun _ => rfl)),
        ∃ before ∈ outlines db.catalog.streams, entry.streamId = before.streamId ∧ entry.producer = before.producer ∧
          ∀ x ∈ entry.readers, x ∈ before.readers := by
      intro entry member
      obtain ⟨row, updated, rfl⟩ := List.mem_map.mp member
      obtain ⟨before, old, rfl⟩ := (Table.mem_update_where _ _ (dropResult resultOid) (fun _ => rfl) row).mp updated
      refine ⟨outline before, List.mem_map_of_mem old, rfl, rfl, ?_⟩
      intro x read
      obtain ⟨consumer, kept, rfl⟩ := List.mem_map.mp read
      exact List.mem_map_of_mem (List.mem_of_mem_filter kept)
    refine ⟨wired.oneActive, ⟨?_, ?_⟩, ?_⟩
    · intro a left b right same
      obtain ⟨aBefore, aMember, aId, aProducer, _⟩ := unread a left
      obtain ⟨bBefore, bMember, bId, bProducer, _⟩ := unread b right
      rw [aId, bId]
      exact wired.single.producers aBefore aMember bBefore bMember (aProducer.symm.trans (same.trans bProducer))
    · intro a left b right x xRead y yRead same
      obtain ⟨aBefore, aMember, aId, _, aReaders⟩ := unread a left
      obtain ⟨bBefore, bMember, bId, _, bReaders⟩ := unread b right
      rw [aId, bId]
      exact wired.single.inputs aBefore aMember bBefore bMember x (aReaders x xRead) y (bReaders y yRead) same
    · intro dataflow member scan scanMember
      obtain ⟨old, other⟩ := List.mem_filter.mp member
      obtain ⟨entry, known, active, stream, streamMember, producer, read⟩ := wired.fed dataflow old scan scanMember
      obtain ⟨row, rowMember, rfl⟩ := List.mem_map.mp streamMember
      obtain ⟨consumer, attached, same⟩ := List.mem_map.mp read
      refine ⟨entry, known, active, outline (dropResult resultOid row), ?_, producer, ?_⟩
      · apply List.mem_map_of_mem
        exact (Table.mem_update_where _ (fun _ => true) (dropResult resultOid) (fun _ => rfl) _).mpr ⟨row, rowMember, rfl⟩
      · rw [← same]
        apply List.mem_map_of_mem
        refine List.mem_filter.mpr ⟨attached, ?_⟩
        have key : consumer.consumer = ⟨dataflow.resultOid, scan.stageId, 0⟩ := congrArg Prod.fst same
        rw [key]
        exact other

theorem wired_collect {slotGeneration : Nat} {dueTransactions dueGenerations : Nat → Bool} {maxTransactions : Nat}
    (ok : collectChangeLog db slotGeneration dueTransactions dueGenerations maxTransactions = .ok after) :
    Wired slotName after := by
  unfold collectChangeLog at ok
  obtain ⟨⟨reconciled, lsn⟩, reconciles, ok⟩ := bind_ok_iff.mp ok
  obtain ⟨⟨collected, count⟩, collects, ok⟩ := bind_ok_iff.mp ok
  cases ok
  have same : generations collected = generations db.catalog.ingress :=
    (generations_collect collects).trans (generations_safe reconciles)
  have before := wired_same db (db.withIngress collected) wired same rfl rfl
  refine ⟨?_, before.single, ?_⟩
  · apply one_active_within before.oneActive
    intro entry member
    obtain ⟨row, kept, rfl⟩ := List.mem_map.mp member
    exact .inl (List.mem_map_of_mem ((Table.mem_delete_where _ _ row).mp kept).1)
  · intro dataflow member scan scanMember
    obtain ⟨entry, known, active, reads⟩ := before.fed dataflow member scan scanMember
    refine ⟨entry, ?_, active, reads⟩
    obtain ⟨row, rowMember, rfl⟩ := List.mem_map.mp known
    apply List.mem_map_of_mem
    refine (Table.mem_delete_where _ _ row).mpr ⟨rowMember, decide_eq_false ?_⟩
    intro listed
    have listed := (List.mem_insertionSort _).mp (List.mem_of_mem_take listed)
    obtain ⟨dead, deadMember, sameKey⟩ := List.mem_map.mp listed
    obtain ⟨deadRow, deadState⟩ := List.mem_filter.mp deadMember
    rw [collected.replayState.row_unique dead row deadRow rowMember sameKey] at deadState
    have retired : row.state = .retired := by
      unfold deadGeneration at deadState
      simp only [Bool.and_eq_true, decide_eq_true_eq] at deadState
      exact deadState.1.1.1
    have current : row.state = .active := active
    rw [retired] at current
    cases current

end Steps

theorem wired_installed (slotName : String) : Wired slotName (installedDatabase : Database Payload Row) := by
  refine ⟨⟨?_, ?_⟩, ⟨?_, ?_⟩, ?_⟩
  · intro entry wrong
    cases wrong
  · intro entry wrong
    cases wrong
  · intro stream wrong
    cases wrong
  · intro stream wrong
    cases wrong
  · intro dataflow wrong
    cases wrong

section Run

variable [DecidableEq Payload] (codec : PayloadCodec Payload) (rowCodec : RowCodec Payload Row) {slotName : String}
  (db after : Database Payload Row) (wired : Wired slotName db)

include wired

theorem wired_step (call : LifecycleCall Payload) (covered : Covered db call)
    (ok : lifecycleStep codec rowCodec slotName db call = .ok after) : Wired slotName after := by
  cases call with
  | activate facts => exact wired_activate db after wired facts covered ok
  | deactivate stopped => exact wired_deactivate db after wired stopped ok
  | register request => exact wired_register db after wired request ok
  | dropTable resultOid =>
      cases ok
      exact wired_drop db wired resultOid
  | slotMoved slot =>
      cases ok
      exact wired_same db _ wired rfl rfl rfl
  | bootstrap server =>
      obtain ⟨⟨ingress, session⟩, started, rfl⟩ := except_map_ok ok
      exact wired_bootstrap db wired server session ingress started
  | persist settings slotGeneration batch =>
      obtain ⟨ingress, persisted, rfl⟩ := except_map_ok ok
      exact wired_same db _ wired (generations_persist persisted) rfl rfl
  | publish slotGeneration =>
      obtain ⟨⟨catalog, publication⟩, published, rfl⟩ := except_map_ok ok
      obtain ⟨sameGenerations, sameStreams⟩ := publish_wiring published
      exact wired_same db _ wired sameGenerations sameStreams rfl
  | advanceFrontier slotGeneration =>
      obtain ⟨⟨ingress, lsn⟩, advanced, rfl⟩ := except_map_ok ok
      exact wired_same db _ wired (generations_frontier slotGeneration lsn advanced) rfl rfl
  | recordFeedback slotGeneration lsn =>
      obtain ⟨⟨ingress, facts⟩, recorded, rfl⟩ := except_map_ok ok
      exact wired_same db _ wired (generations_feedback recorded) rfl rfl
  | consume streamId consumer move =>
      obtain ⟨catalog, consumed, rfl⟩ := except_map_ok ok
      obtain ⟨sameIngress, sameStreams⟩ := outlines_consume consumed
      exact wired_same db _ wired (congrArg generations sameIngress) sameStreams rfl
  | collectChangeLog slotGeneration dueTransactions dueGenerations maxTransactions =>
      exact wired_collect db after wired ok
  | collectStream streamId chunkLimit rowLimit byteLimit =>
      obtain ⟨catalog, collected, rfl⟩ := except_map_ok ok
      obtain ⟨sameIngress, sameStreams⟩ := outlines_collect collected
      exact wired_same db _ wired (congrArg generations sameIngress) sameStreams rfl

variable {dataflow : Dataflow} (member : dataflow ∈ db.dataflows) {scan : ScanStage}
  (scanMember : scan ∈ dataflow.scans)

include member scanMember

omit [DecidableEq Payload] in
theorem wired_fed : ∃ replay stream, FedBy db dataflow scan replay stream := by
  obtain ⟨entry, known, active, reads⟩ := wired.fed dataflow member scan scanMember
  obtain ⟨replay, row, rfl⟩ := List.mem_map.mp known
  obtain ⟨stream, found, consumer, only⟩ := read_stream wired.single reads
  refine ⟨replay, stream, ⟨row, active⟩, ?_, found, consumer, only⟩
  intro other otherRow otherActive
  have same := wired.oneActive.unique _ (List.mem_map_of_mem otherRow) _ known otherActive active
  exact db.catalog.ingress.replayState.row_unique other replay otherRow row (congrArg Prod.fst same)

omit [DecidableEq Payload] in
theorem fed_undiscarded {slotGeneration : Nat} {published : SourceCatalog Payload Row} {publication : SourcePublication}
    (ok : publishSourceBatch rowCodec db.catalog slotGeneration = .ok (published, publication))
    (source : publication.sourceOid = some scan.sourceOid)
    (later : ∃ final, publication.finalLsn = some final ∧ dataflow.activationLsn < final) :
    publication.outcome ≠ .discarded := by
  intro discarded
  obtain ⟨replay, locked, ⟨_, _, _, idle | blocked⟩ | ⟨candidate, txn, task, next, _, _, made, named, _⟩⟩ :=
    publish_source_batch_cases ok
  · rw [discarded] at idle
    cases idle
  · rw [discarded] at blocked
    cases blocked
  · obtain ⟨row, sameGeneration, active⟩ := db.catalog.ingress.active_replay_some slotGeneration replay locked
    obtain ⟨current, stream, fed⟩ := wired_fed db wired member scanMember
    have isCurrent : replay = current := fed.onlyGeneration replay row active
    have sameSource : task.sourceOid = scan.sourceOid := Option.some.inj (named.2.2.1.symm.trans source)
    have found : sourceStream db.catalog.streams replay.slotGeneration task.sourceOid = some stream := by
      rw [isCurrent, sameSource]
      exact fed.source
    obtain ⟨final, isFinal, above⟩ := later
    have sameFinal : task.finalLsn = final := Option.some.inj (named.2.2.2.symm.trans isFinal)
    obtain ⟨consumer, attached, _, activation⟩ := fed.consumer
    rw [discarded] at made
    rcases publish_task_cases made with
      ⟨_, _, _, _, ineligible⟩ | ⟨wrong, _⟩ | ⟨other, moved, otherFound, appended, _⟩
    · have eligible : hasEligibleConsumer stream task.finalLsn = true := by
        refine List.any_eq_true.mpr ⟨consumer, attached, ?_⟩
        rw [activation, sameFinal]
        exact decide_eq_true above
      rw [ineligible stream found] at eligible
      cases eligible
    · cases wrong
    · rw [found] at otherFound
      cases otherFound
      have unwatched := (append_prefix_outline appended).2.2 rfl
      rw [unwatched] at attached
      cases attached

end Run

-- Along every run in which no activation makes the slot anew while a result
-- table exists, the active dataflows are fed by the active generation.
theorem active_generation_feeds [DecidableEq Payload] (codec : PayloadCodec Payload) (rowCodec : RowCodec Payload Row)
    (slotName : String) (db : Database Payload Row)
    (ran : Path (lifecycleStep codec rowCodec slotName) Covered installedDatabase db) :
    ActiveFed db ∧ NothingLost rowCodec db := by
  have wired : Wired slotName db := by
    apply path_invariant (Wired slotName) _ installedDatabase db (wired_installed slotName) ran
    intro state call after wired covered taken
    exact wired_step codec rowCodec state after wired call covered taken
  constructor
  · intro _ dataflow member _ scan scanMember
    exact wired_fed db wired member scanMember
  · intro _ dataflow member _ scan scanMember slotGeneration after publication published source later
    exact fed_undiscarded rowCodec db wired member scanMember published source later

def activation (consistentLsn : Lsn) : LifecycleCall Nat := .activate ⟨true, true, ⟨"7", 1⟩, consistentLsn⟩

def oneScan : LifecycleCall Nat := .register ⟨900, 5, [⟨0, 100⟩], 8, 64⟩

-- One committed row of the source, admitted in one batch.
def committedChange (slotGeneration : Nat) : LifecycleCall Nat :=
  .persist anySource slotGeneration ⟨50, 11, [insertion 12 50 100 7], some (.commit 13 14)⟩

def afterCallsOf (calls : List (LifecycleCall Nat)) : Database Nat Nat :=
  attempts (lifecycleStep numberPayload numberRow "shiba") installedDatabase calls

def fedDatabase : Database Nat Nat := afterCallsOf [activation 1, oneScan, committedChange 1]

theorem active_generation_feeds_change :
    (ActiveFed fedDatabase ∧ NothingLost numberRow fedDatabase) ∧ fedDatabase.runtimeActive = true ∧
      fedDatabase.dataflows = [⟨900, 5, true, [⟨0, 100⟩]⟩] := by
  refine ⟨active_generation_feeds numberPayload numberRow "shiba" fedDatabase ?_, rfl, rfl⟩
  have activated : Path (lifecycleStep numberPayload numberRow "shiba") Covered installedDatabase
      (afterCallsOf [activation 1]) :=
    .next _ _ (activation 1) .here (.inr rfl) rfl
  have registered : Path (lifecycleStep numberPayload numberRow "shiba") Covered installedDatabase
      (afterCallsOf [activation 1, oneScan]) :=
    .next _ _ oneScan activated trivial rfl
  exact .next _ _ (committedChange 1) registered trivial rfl

-- The slot is lost after registration: the next activation makes it anew and
-- opens generation 2, whose changes the dataflow does not read.
def strandedDatabase : Database Nat Nat :=
  afterCallsOf [activation 1, oneScan, .slotMoved none, activation 10, committedChange 2]

theorem active_generation_strands :
    ∃ db, Path (lifecycleStep numberPayload numberRow "shiba") (fun _ _ => True) installedDatabase db ∧
      db.runtimeActive = true ∧ ¬ ActiveFed db ∧ ¬ NothingLost numberRow db := by
  refine ⟨strandedDatabase, ?_, rfl, ?_, ?_⟩
  · exact run_path (fun _ _ => trivial) installedDatabase
      [activation 1, oneScan, .slotMoved none, activation 10, committedChange 2] .here rfl
  · intro fed
    obtain ⟨replay, stream, feeds⟩ := fed rfl ⟨900, 5, true, [⟨0, 100⟩]⟩ (List.mem_singleton.mpr rfl) rfl ⟨0, 100⟩
      (List.mem_singleton.mpr rfl)
    obtain ⟨row, active⟩ := feeds.generation
    have second : replay.slotGeneration = 2 := by
      have all : ∀ other ∈ strandedDatabase.catalog.ingress.replayState.rows, other.state = .active →
          other.slotGeneration = 2 := by decide
      exact all replay row active
    have found := feeds.source
    rw [second] at found
    have none : sourceStream strandedDatabase.catalog.streams 2 100 = none := rfl
    rw [none] at found
    cases found
  · intro kept
    have published : ∃ after publication, publishSourceBatch numberRow strandedDatabase.catalog 2 = .ok (after, publication) ∧
        publication.sourceOid = some 100 ∧ publication.finalLsn = some 13 ∧ publication.outcome = .discarded :=
      ⟨_, _, rfl, rfl, rfl, rfl⟩
    obtain ⟨after, publication, ok, source, final, discarded⟩ := published
    exact kept rfl ⟨900, 5, true, [⟨0, 100⟩]⟩ (List.mem_singleton.mpr rfl) rfl ⟨0, 100⟩ (List.mem_singleton.mpr rfl) 2 after
      publication ok source ⟨13, final, by decide⟩ discarded

end Shiba.Lifecycle
