import Shiba.Ingress.Admission

set_option autoImplicit false

namespace Shiba.Ingress

open SerialTable

variable {Payload : Type}

theorem map_fst_ok {α β : Type} {result : Except Fault (α × β)} {value : α} (mapped : result.map Prod.fst = .ok value) :
    ∃ fact, result = .ok (value, fact) := by
  cases result with
  | error fault => cases mapped
  | ok pair =>
      obtain ⟨first, second⟩ := pair
      cases mapped
      exact ⟨second, rfl⟩

theorem lock_transaction_ok {db : IngressCatalog Payload} {ingressTxnId : Nat} {replay : ReplayState}
    {txn : IngressTransaction Payload} (locked : lockTransaction db ingressTxnId = .ok (replay, txn)) :
    db.findTransaction ingressTxnId = some txn ∧ db.activeReplay txn.slotGeneration = some replay := by
  unfold lockTransaction at locked
  cases found : db.findTransaction ingressTxnId with
  | none => simp [found] at locked
  | some row =>
      cases active : db.activeReplay row.slotGeneration with
      | none => simp [found, active] at locked
      | some state =>
          simp only [found, active, Except.ok.injEq, Prod.mk.injEq] at locked
          obtain ⟨rfl, rfl⟩ := locked
          exact ⟨rfl, active⟩

section

variable {generation : Nat} {slotName : String} {allocation : Allocation} (db after : IngressCatalog Payload)
  (identity : ReplayIdentity) (server : ServerFacts)

theorem mem_open_generation (slotName : String) (baseline : Lsn) (replay : ReplayState) :
    replay ∈ (openGeneration db server slotName baseline).replayState.rows ↔
      replay ∈ db.replayState.rows ∨ replay = freshReplay server slotName baseline db.replayState.next :=
  Table.mem_insert db.replayState _ (fun _ => rfl) replay

theorem mem_open_transaction (txn : IngressTransaction Payload) :
    txn ∈ (openTransaction db identity).transactions.rows ↔
      txn ∈ db.transactions.rows ∨ txn = freshTransaction identity db.transactions.next :=
  Table.mem_insert db.transactions _ (fun _ => rfl) txn

theorem mem_abort_lost (slotGeneration : Nat) (txn : IngressTransaction Payload) :
    txn ∈ (abortLost db server slotGeneration).transactions.rows ↔
      ∃ before ∈ db.transactions.rows, txn = if isOpenIn slotGeneration before then sealLost before else before :=
  Table.mem_update_where db.transactions (isOpenIn slotGeneration) sealLost (fun _ => rfl) txn

theorem mem_abort_lost_replay (slotGeneration : Nat) (replay : ReplayState) :
    replay ∈ (abortLost db server slotGeneration).replayState.rows ↔
      (replay ∈ db.replayState.rows ∧ replay.slotGeneration ≠ slotGeneration) ∨
        ∃ before ∈ db.replayState.rows, before.slotGeneration = slotGeneration ∧ replay = restartEpoch server before :=
  Table.mem_update db.replayState slotGeneration (restartEpoch server) (fun _ => rfl) replay

-- One lemma per call: everything a committed call can have done.

theorem insert_generation_cases {db after : IngressCatalog Payload} {server : ServerFacts} {baseline : Lsn}
    (inserted : insertGeneration db server slotName baseline = .ok (after, generation)) :
    after = openGeneration db server slotName baseline := by
  unfold insertGeneration at inserted
  split at inserted
  · cases inserted
  · simp only [Except.ok.injEq, Prod.mk.injEq] at inserted
    exact inserted.1.symm

theorem ensure_generation_cases {db after : IngressCatalog Payload} {server : ServerFacts} {slot : Option LogicalSlot}
    {forceNew : Bool} (ensured : ensureIngressGeneration db server slot slotName forceNew = .ok (after, generation)) :
    after = db ∨ ∃ baseline, insertGeneration db server slotName baseline = .ok (after, generation) ∨
      ∃ old, insertGeneration (db.updateReplay old retireReplay (fun _ => rfl)) server slotName baseline =
        .ok (after, generation) := by
  unfold ensureIngressGeneration at ensured
  split at ensured
  · cases ensured
  · split at ensured
    · cases ensured
    · rename_i baseline _
      split at ensured
      · exact .inr ⟨baseline, .inl ensured⟩
      · rename_i replay _
        split at ensured
        · exact .inr ⟨baseline, .inr ⟨replay.slotGeneration, ensured⟩⟩
        · split at ensured
          · cases ensured
          · simp only [Except.ok.injEq, Prod.mk.injEq] at ensured
            exact .inl ensured.1.symm

theorem claim_cases (row : ClaimedTransaction) (ok : claimIngressTransaction db identity = .ok (after, row)) :
    ∃ replay, db.activeReplay identity.slotGeneration = some replay ∧
      ((∃ txn, db.identified identity = some txn ∧ after = db ∧ row = claimed txn false) ∨
        (db.identified identity = none ∧
          (∀ txn ∈ db.transactions.rows, txn.slotGeneration = identity.slotGeneration →
            txn.sourceXid = identity.sourceXid → txn.status ≠ .opened) ∧
          after = openTransaction db identity ∧
          row = claimed (freshTransaction identity db.transactions.next : IngressTransaction Payload) true)) := by
  unfold claimIngressTransaction at ok
  cases active : db.activeReplay identity.slotGeneration with
  | none => simp [active] at ok
  | some replay =>
      simp only [active] at ok
      refine ⟨replay, rfl, ?_⟩
      split at ok
      · cases ok
      · cases found : db.identified identity with
        | some txn =>
            simp only [found, Except.ok.injEq, Prod.mk.injEq] at ok
            exact .inl ⟨txn, rfl, ok.1.symm, ok.2.symm⟩
        | none =>
            simp only [found] at ok
            split at ok
            · cases ok
            · rename_i unclaimed
              simp only [Except.ok.injEq, Prod.mk.injEq] at ok
              refine .inr ⟨rfl, ?_, ok.1.symm, ok.2.symm⟩
              intro txn member generation xid opened
              exact unclaimed (List.any_eq_true.mpr ⟨txn, member, by simp [generation, xid, opened]⟩)

theorem commit_cases {db after : IngressCatalog Payload} {ingressTxnId : Nat} {commitLsn endLsn : Lsn}
    {facts : CommitFacts} (ok : commitIngressTransaction db ingressTxnId commitLsn endLsn = .ok (after, facts)) :
    ∃ replay txn, lockTransaction db ingressTxnId = .ok (replay, txn) ∧ commitLsn ≤ endLsn ∧
      ((txn.status = .committed ∧ txn.commitLsn = some commitLsn ∧ txn.endLsn = some endLsn ∧
          after = db.updateReplay txn.slotGeneration (persistThrough endLsn) (fun _ => rfl)) ∨
        (txn.status = .opened ∧
          (∀ other ∈ db.transactions.rows, other.status = .committed → other.commitLsn ≠ some commitLsn) ∧
          txn.payloadBytes ≤ replay.openPayloadBytes ∧
          after = (db.updateTransaction ingressTxnId (sealCommitted commitLsn endLsn) (fun _ => rfl)).updateReplay
            txn.slotGeneration (fun row => persistThrough endLsn (releasePayload txn.payloadBytes row)) (fun _ => rfl))) := by
  unfold commitIngressTransaction at ok
  cases locked : lockTransaction db ingressTxnId with
  | error fault => simp [locked] at ok
  | ok pair =>
      obtain ⟨replay, txn⟩ := pair
      simp only [locked] at ok
      split at ok
      · cases ok
      · rename_i ordered
        refine ⟨replay, txn, rfl, Nat.le_of_not_lt ordered, ?_⟩
        cases status : txn.status with
        | committed =>
            simp only [status] at ok
            split at ok
            · cases ok
            · rename_i same
              obtain ⟨sameCommit, sameEnd⟩ := not_or.mp same
              simp only [Except.ok.injEq, Prod.mk.injEq] at ok
              exact .inl ⟨rfl, not_not.mp sameCommit, not_not.mp sameEnd, ok.1.symm⟩
        | opened =>
            simp only [status] at ok
            split at ok
            · cases ok
            · rename_i unique
              split at ok
              · cases ok
              · rename_i covered
                simp only [Except.ok.injEq, Prod.mk.injEq] at ok
                refine .inr ⟨rfl, ?_, Nat.le_of_not_lt covered, ok.1.symm⟩
                intro other member committed same
                exact unique (List.any_eq_true.mpr ⟨other, member, by simp [committed, same]⟩)
        | aborted => simp [status] at ok

theorem abort_cases {db after : IngressCatalog Payload} {ingressTxnId : Nat} {abortLsn : Lsn} {finalized : Bool}
    (ok : abortIngressTransaction db ingressTxnId abortLsn = .ok (after, finalized)) :
    ∃ replay txn, lockTransaction db ingressTxnId = .ok (replay, txn) ∧
      ((txn.status = .aborted ∧ (txn.finalLsn = some abortLsn ∨ txn.finalLsn = some txn.transactionStartLsn) ∧
          after = db) ∨
        (txn.status = .opened ∧ txn.payloadBytes ≤ replay.openPayloadBytes ∧
          after = (db.updateTransaction ingressTxnId (sealAborted abortLsn) (fun _ => rfl)).updateReplay
            txn.slotGeneration (releasePayload txn.payloadBytes) (fun _ => rfl))) := by
  unfold abortIngressTransaction at ok
  cases locked : lockTransaction db ingressTxnId with
  | error fault => simp [locked] at ok
  | ok pair =>
      obtain ⟨replay, txn⟩ := pair
      simp only [locked] at ok
      refine ⟨replay, txn, rfl, ?_⟩
      cases status : txn.status with
      | aborted =>
          simp only [status] at ok
          split at ok
          · cases ok
          · rename_i same
            simp only [Except.ok.injEq, Prod.mk.injEq] at ok
            exact .inl ⟨rfl, by simpa [or_iff_not_imp_left] using same, ok.1.symm⟩
      | opened =>
          simp only [status] at ok
          split at ok
          · cases ok
          · rename_i covered
            simp only [Except.ok.injEq, Prod.mk.injEq] at ok
            exact .inr ⟨rfl, Nat.le_of_not_lt covered, ok.1.symm⟩
      | committed => simp [status] at ok

theorem abort_subtransaction_cases (ingressTxnId sourceSubxid : Nat) (recorded : Bool)
    (ok : abortIngressSubtransaction db ingressTxnId sourceSubxid = .ok (after, recorded)) :
    ∃ replay txn, lockTransaction db ingressTxnId = .ok (replay, txn) ∧ txn.status = .opened ∧
      after = db.updateTransaction ingressTxnId (recordSubtransactionAbort sourceSubxid)
        (record_subtransaction_id sourceSubxid) := by
  unfold abortIngressSubtransaction at ok
  cases locked : lockTransaction db ingressTxnId with
  | error fault => simp [locked] at ok
  | ok pair =>
      obtain ⟨replay, txn⟩ := pair
      simp only [locked] at ok
      split at ok
      · cases ok
      · rename_i opened
        split at ok
        · cases ok
        · simp only [Except.ok.injEq, Prod.mk.injEq] at ok
          exact ⟨replay, txn, rfl, not_not.mp opened, ok.1.symm⟩

variable {after db : IngressCatalog Payload} {txn : IngressTransaction Payload}

theorem reconcile_cases {server : ServerFacts} {slotGeneration count : Nat}
    (ok : reconcilePostmasterRestart db server slotGeneration = .ok (after, count)) :
    ∃ replay, db.activeReplay slotGeneration = some replay ∧
      ((replay.postmasterStartedAt = server.postmasterStartTime ∧ after = db) ∨
        (replay.postmasterStartedAt ≠ server.postmasterStartTime ∧ after = abortLost db server slotGeneration)) := by
  unfold reconcilePostmasterRestart at ok
  cases active : db.activeReplay slotGeneration with
  | none => simp [active] at ok
  | some replay =>
      simp only [active] at ok
      refine ⟨replay, rfl, ?_⟩
      split at ok
      · rename_i same
        simp only [Except.ok.injEq, Prod.mk.injEq] at ok
        exact .inl ⟨same, ok.1.symm⟩
      · rename_i different
        simp only [Except.ok.injEq, Prod.mk.injEq] at ok
        exact .inr ⟨different, ok.1.symm⟩

theorem advance_frontier_cases {slotGeneration : Nat} {lsn : Option Lsn}
    (ok : advanceIngressPublicationFrontier db slotGeneration = .ok (after, lsn)) :
    ∃ replay, db.activeReplay slotGeneration = some replay ∧
      ((advanceTarget db replay = none ∧ after = db) ∨
        ∃ target, advanceTarget db replay = some target ∧
          after = db.updateReplay slotGeneration (publishThrough target) (fun _ => rfl)) := by
  unfold advanceIngressPublicationFrontier at ok
  cases active : db.activeReplay slotGeneration with
  | none => simp [active] at ok
  | some replay =>
      simp only [active] at ok
      refine ⟨replay, rfl, ?_⟩
      cases target : advanceTarget db replay with
      | none =>
          simp only [target, Except.ok.injEq, Prod.mk.injEq] at ok
          exact .inl ⟨rfl, ok.1.symm⟩
      | some lsn =>
          simp only [target, Except.ok.injEq, Prod.mk.injEq] at ok
          exact .inr ⟨lsn, rfl, ok.1.symm⟩

theorem allocate_ok {replay : ReplayFacts} {taskCount : Nat} (ok : allocate txn replay taskCount = .ok allocation) :
    allocation = ⟨txn.eventCount + 1, txn.eventCount + replay.insertedCount, txn.batchCount + 1, taskCount,
      txn.eventCount + replay.insertedCount, txn.payloadBytes + replay.batchPayloadBytes, txn.batchCount + 1,
      txn.pendingPublications + taskCount⟩ := by
  unfold allocate at ok
  split at ok
  · cases ok
  · rename_i firstInputSeq first
    split at ok
    · cases ok
    · rename_i eventCount events
      split at ok
      · cases ok
      · rename_i payloadBytes payload
        split at ok
        · cases ok
        · rename_i batchCount batch
          split at ok
          · cases ok
          · rename_i pending tasks
            rw [← Except.ok.inj ok, (checked_add_ok first).1, (checked_add_ok events).1,
              (checked_add_ok payload).1, (checked_add_ok batch).1, (checked_add_ok tasks).1]

-- The catalog after a batch whose every write fact was as expected.
def admittedBatch (db : IngressCatalog Payload) (txn : IngressTransaction Payload) (bytes : Nat)
    (allocation : Allocation) (inserted : List (ChangeRow Payload)) : IngressCatalog Payload :=
  (db.updateTransaction txn.ingressTxnId
    (admitRows allocation inserted (publicationTasks allocation inserted)) (fun _ => rfl)).updateReplay
      txn.slotGeneration (stagePayload bytes) (fun _ => rfl)

def allocatedRows (allocation : Allocation) (replay : ReplayFacts) (events : List (IngressEvent Payload)) :
    List (ChangeRow Payload) :=
  numberRows allocation.firstInputSeq (events.drop replay.replayedCount)

-- One successful header update is proof that every earlier part of the
-- statement ran, so the staged shape of the catalog never survives.
theorem write_batch_ok {codec : PayloadCodec Payload} {settings : AdmissionSettings Payload} {locked : ReplayState}
    {events : List (IngressEvent Payload)} {replay : ReplayFacts} (ok : validateWrite txn.ingressTxnId replay allocation
      (writeBatch codec settings db locked txn events replay allocation).2 = .ok ()) :
    txn.status = .opened ∧
      insertedMatches codec replay allocation (allocatedRows allocation replay events) = true ∧
      (publicationTasks allocation (allocatedRows allocation replay events)).length = allocation.taskCount ∧
      (allocatedRows allocation replay events).length = replay.insertedCount ∧
      locked.openPayloadBytes + replay.batchPayloadBytes ≤ settings.stagingLimit ∧
      (writeBatch codec settings db locked txn events replay allocation).1 =
        admittedBatch db txn replay.batchPayloadBytes allocation (allocatedRows allocation replay events) := by
  unfold validateWrite at ok
  split at ok
  · rename_i same
    have updated : (writeBatch codec settings db locked txn events replay allocation).2.headerUpdates = 1 :=
      congrArg WriteFacts.headerUpdates same
    have count : (writeBatch codec settings db locked txn events replay allocation).2.insertedCount =
        replay.insertedCount := congrArg WriteFacts.insertedCount same
    simp only [writeBatch, Bool.toNat_eq_one, Bool.and_eq_true, decide_eq_true_eq] at updated
    obtain ⟨⟨⟨facts, tasks⟩, limit⟩, opened⟩ := updated
    rw [if_pos facts] at tasks
    refine ⟨opened, facts, tasks, count, limit, ?_⟩
    simp only [writeBatch, facts, if_true, tasks, limit, opened, decide_true, Bool.and_true]
    rfl
  · cases ok

end

variable [DecidableEq Payload]

theorem admit_events_cases {codec : PayloadCodec Payload} {settings : AdmissionSettings Payload}
    {db after : IngressCatalog Payload} {ingressTxnId : Nat} {events : List (IngressEvent Payload)}
    {facts : AdmissionFacts} (ok : admitEvents codec settings db ingressTxnId events = .ok (after, facts)) :
    ∃ locked txn, lockTransaction db ingressTxnId = .ok (locked, txn) ∧ validateEvents codec events = .ok () ∧
      validateReplay ingressTxnId txn.status (classifyReplay codec txn events) = .ok () ∧
      (((txn.status ≠ .opened ∨ (classifyReplay codec txn events).insertedCount = 0) ∧ after = db) ∨
        (txn.status = .opened ∧ (classifyReplay codec txn events).insertedCount ≠ 0 ∧
          ∃ allocation, allocate txn (classifyReplay codec txn events)
              (sourceOids (events.drop (classifyReplay codec txn events).replayedCount)).length = .ok allocation ∧
            insertedMatches codec (classifyReplay codec txn events) allocation
              (allocatedRows allocation (classifyReplay codec txn events) events) = true ∧
            (publicationTasks allocation
              (allocatedRows allocation (classifyReplay codec txn events) events)).length = allocation.taskCount ∧
            (allocatedRows allocation (classifyReplay codec txn events) events).length =
              (classifyReplay codec txn events).insertedCount ∧
            locked.openPayloadBytes + (classifyReplay codec txn events).batchPayloadBytes ≤ settings.stagingLimit ∧
            after = admittedBatch db txn (classifyReplay codec txn events).batchPayloadBytes allocation
              (allocatedRows allocation (classifyReplay codec txn events) events))) := by
  unfold admitEvents at ok
  split at ok
  · cases ok
  · cases valid : validateEvents codec events with
    | error fault => simp [valid] at ok
    | ok _ =>
        simp only [valid] at ok
        cases lock : lockTransaction db ingressTxnId with
        | error fault => simp [lock] at ok
        | ok pair =>
            obtain ⟨locked, txn⟩ := pair
            simp only [lock] at ok
            split at ok
            · cases ok
            · split at ok
              · cases ok
              · rename_i prefixOk
                refine ⟨locked, txn, rfl, rfl, prefixOk, ?_⟩
                split at ok
                · rename_i nothing
                  simp only [Except.ok.injEq, Prod.mk.injEq] at ok
                  exact .inl ⟨nothing, ok.1.symm⟩
                · rename_i something
                  obtain ⟨opened, present⟩ := not_or.mp something
                  split at ok
                  · cases ok
                  · split at ok
                    · cases ok
                    · rename_i allocation allocated
                      split at ok
                      · cases ok
                      · rename_i wrote
                        have sameId : txn.ingressTxnId = ingressTxnId :=
                          (db.transactions.mem_of_find _ _ (lock_transaction_ok lock).1).2
                        subst sameId
                        obtain ⟨_, matched, tasks, count, limit, written⟩ := write_batch_ok wrote
                        simp only [Except.ok.injEq, Prod.mk.injEq] at ok
                        exact .inr ⟨not_not.mp opened, present, allocation, allocated, matched, tasks, count, limit,
                          ok.1.symm.trans written⟩

end Shiba.Ingress
