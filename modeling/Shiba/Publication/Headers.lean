import Shiba.Publication.Accounting

set_option autoImplicit false

namespace Shiba.Publication

open SerialTable Transition Shiba.Ingress Shiba.Stream

variable {Payload Row : Type}

-- Every change an ingress call makes to one open header.
inductive HeaderStep (db : IngressCatalog Payload) (txn : IngressTransaction Payload) : IngressTransaction Payload → Prop where
  | admitted (allocation : Allocation) (rows : List (ChangeRow Payload))
      (first : allocation.firstInputSeq = txn.eventCount + 1)
      (last : allocation.lastInputSeq = txn.eventCount + rows.length)
      (numbered : rows.map ChangeRow.inputSeq = List.range' (txn.eventCount + 1) rows.length) :
      HeaderStep db txn (admitRows allocation rows (publicationTasks allocation rows) txn)
  | committed (commitLsn endLsn : Lsn)
      (fresh : ∀ other ∈ db.transactions.rows, other.status = .committed → other.commitLsn ≠ some commitLsn) :
      HeaderStep db txn (sealCommitted commitLsn endLsn txn)
  | aborted (abortLsn : Lsn) : HeaderStep db txn (sealAborted abortLsn txn)
  | subtransaction (sourceSubxid : Nat) : HeaderStep db txn (recordSubtransactionAbort sourceSubxid txn)

-- Sealed headers stay as they are; an open one may take a step.
structure HeadersStep (db after : IngressCatalog Payload) : Prop where
  forward : ∀ txn ∈ db.transactions.rows, txn ∈ after.transactions.rows ∨
    (txn.status = .opened ∧ ∃ moved ∈ after.transactions.rows, HeaderStep db txn moved)
  backward : ∀ moved ∈ after.transactions.rows, moved ∈ db.transactions.rows ∨
    (∃ identity ingressTxnId, moved = freshTransaction identity ingressTxnId) ∨
    ∃ txn ∈ db.transactions.rows, txn.status = .opened ∧ HeaderStep db txn moved
  once : ∀ a ∈ after.transactions.rows, ∀ b ∈ after.transactions.rows, a.status = .committed → b.status = .committed →
    a ∈ db.transactions.rows ∨ b ∈ db.transactions.rows ∨ a = b

theorem headers_step_same {db after : IngressCatalog Payload} (same : after.transactions = db.transactions) :
    HeadersStep db after := by
  constructor
  · intro txn member
    exact .inl (same ▸ member)
  · intro txn member
    exact .inl (same ▸ member)
  · intro a member _ _ _ _
    exact .inl (same ▸ member)

variable (db after : IngressCatalog Payload)

theorem headers_step_congr (other : IngressCatalog Payload) (steps : HeadersStep db after)
    (same : other.transactions = after.transactions) : HeadersStep db other := by
  obtain ⟨forward, backward, once⟩ := steps
  rw [← same] at forward backward once
  exact ⟨forward, backward, once⟩

theorem headers_step_update (ingressTxnId : Nat) (change : IngressTransaction Payload → IngressTransaction Payload)
    (keeps : ∀ txn, (change txn).ingressTxnId = txn.ingressTxnId) (txn : IngressTransaction Payload)
    (found : db.findTransaction ingressTxnId = some txn) (opened : txn.status = .opened)
    (stepped : HeaderStep db txn (change txn)) : HeadersStep db (db.updateTransaction ingressTxnId change keeps) := by
  obtain ⟨txnMember, named⟩ := db.transactions.mem_of_find _ _ found
  constructor
  · intro row member
    by_cases hit : row.ingressTxnId = ingressTxnId
    · have same : row = txn := db.transactions.row_unique row txn member txnMember (hit.trans named.symm)
      subst same
      exact .inr ⟨opened, change row, (db.mem_update_transaction _ _ keeps row _ found).mpr (.inr rfl), stepped⟩
    · exact .inl ((db.mem_update_transaction _ _ keeps txn _ found).mpr (.inl ⟨member, hit⟩))
  · intro row member
    rcases (db.mem_update_transaction _ _ keeps txn row found).mp member with ⟨old, _⟩ | rfl
    · exact .inl old
    · exact .inr (.inr ⟨txn, txnMember, opened, stepped⟩)
  · intro a aMember b bMember _ _
    rcases (db.mem_update_transaction _ _ keeps txn a found).mp aMember with ⟨old, _⟩ | rfl
    · exact .inl old
    · rcases (db.mem_update_transaction _ _ keeps txn b found).mp bMember with ⟨old, _⟩ | rfl
      · exact .inr (.inl old)
      · exact .inr (.inr rfl)

theorem headers_step_abort_lost (server : ServerFacts) (slotGeneration : Nat) :
    HeadersStep db (abortLost db server slotGeneration) := by
  have opened : ∀ txn : IngressTransaction Payload, isOpenIn slotGeneration txn = true → txn.status = .opened := by
    intro txn lost
    simp only [isOpenIn, decide_eq_true_eq] at lost
    exact lost.2
  constructor
  · intro txn member
    cases lost : isOpenIn slotGeneration txn with
    | true =>
        refine .inr ⟨opened txn lost, sealLost txn, ?_, .aborted txn.transactionStartLsn⟩
        exact (mem_abort_lost db server slotGeneration _).mpr ⟨txn, member, by simp [lost]⟩
    | false => exact .inl ((mem_abort_lost db server slotGeneration _).mpr ⟨txn, member, by simp [lost]⟩)
  · intro moved member
    obtain ⟨txn, old, rfl⟩ := (mem_abort_lost db server slotGeneration moved).mp member
    cases lost : isOpenIn slotGeneration txn with
    | true => exact .inr (.inr ⟨txn, old, opened txn lost, .aborted txn.transactionStartLsn⟩)
    | false => exact .inl old
  · intro a aMember b _ committed _
    obtain ⟨txn, old, rfl⟩ := (mem_abort_lost db server slotGeneration a).mp aMember
    cases lost : isOpenIn slotGeneration txn with
    | true => simp [lost, sealLost, sealAborted] at committed
    | false => exact .inl old

theorem headers_step_ok [DecidableEq Payload] {codec : PayloadCodec Payload} {db after : IngressCatalog Payload}
    {call : IngressCall Payload} (ok : ingressStep codec db call = .ok after) : HeadersStep db after := by
  cases call with
  | ensureGeneration server slot slotName forceNew =>
      obtain ⟨generation, made⟩ := map_fst_ok ok
      rcases ensure_generation_cases made with
        rfl | ⟨baseline, fresh | ⟨old, fresh⟩⟩
      · exact headers_step_same rfl
      · rw [insert_generation_cases fresh]
        exact headers_step_same rfl
      · rw [insert_generation_cases fresh]
        exact headers_step_same rfl
  | retireGeneration slotName =>
      cases ok
      exact headers_step_same rfl
  | claim identity =>
      obtain ⟨row, made⟩ := map_fst_ok ok
      obtain ⟨replay, _, ⟨_, _, rfl, _⟩ | ⟨_, _, rfl, _⟩⟩ := claim_cases db after identity row made
      · exact headers_step_same rfl
      · constructor
        · intro txn member
          exact .inl ((mem_open_transaction db identity txn).mpr (.inl member))
        · intro txn member
          rcases (mem_open_transaction db identity txn).mp member with old | rfl
          · exact .inl old
          · exact .inr (.inl ⟨identity, _, rfl⟩)
        · intro a aMember b _ committed _
          rcases (mem_open_transaction db identity a).mp aMember with old | rfl
          · exact .inl old
          · cases committed
  | admitted settings ingressTxnId events =>
      obtain ⟨facts, made⟩ := map_fst_ok ok
      obtain ⟨locked, txn, lock, _, _, ⟨_, rfl⟩ | ⟨opened, _, allocation, allocated, _, _, count, _, rfl⟩⟩ :=
        admit_events_cases made
      · exact headers_step_same rfl
      · have found := (lock_transaction_ok lock).1
        have named := (db.transactions.mem_of_find _ _ found).2
        subst named
        have isAllocation := allocate_ok allocated
        have first : allocation.firstInputSeq = txn.eventCount + 1 := congrArg Allocation.firstInputSeq isAllocation
        have last := congrArg Allocation.lastInputSeq isAllocation
        refine headers_step_congr _ _ _ (headers_step_update db txn.ingressTxnId
          (admitRows allocation (allocatedRows allocation (classifyReplay codec txn events) events)
            (publicationTasks allocation (allocatedRows allocation (classifyReplay codec txn events) events)))
          (fun _ => rfl) txn found opened (.admitted allocation _ first (last.trans (by rw [count])) ?_)) rfl
        rw [← first]
        exact (number_rows_seqs _ _).trans (by rw [allocatedRows, number_rows_length])
  | commit ingressTxnId commitLsn endLsn =>
      obtain ⟨facts, made⟩ := map_fst_ok ok
      obtain ⟨replay, txn, lock, _, ⟨_, _, _, rfl⟩ | ⟨opened, fresh, _, rfl⟩⟩ := commit_cases made
      · exact headers_step_same rfl
      · exact headers_step_congr _ _ _ (headers_step_update db ingressTxnId (sealCommitted commitLsn endLsn)
          (fun _ => rfl) txn (lock_transaction_ok lock).1 opened (.committed commitLsn endLsn fresh)) rfl
  | abort ingressTxnId abortLsn =>
      obtain ⟨finalized, made⟩ := map_fst_ok ok
      obtain ⟨replay, txn, lock, ⟨_, _, rfl⟩ | ⟨opened, _, rfl⟩⟩ := abort_cases made
      · exact headers_step_same rfl
      · exact headers_step_congr _ _ _ (headers_step_update db ingressTxnId (sealAborted abortLsn) (fun _ => rfl) txn
          (lock_transaction_ok lock).1 opened (.aborted abortLsn)) rfl
  | abortSubtransaction ingressTxnId sourceSubxid =>
      obtain ⟨recorded, made⟩ := map_fst_ok ok
      obtain ⟨replay, txn, lock, opened, rfl⟩ :=
        abort_subtransaction_cases db after ingressTxnId sourceSubxid recorded made
      exact headers_step_update db ingressTxnId _ (record_subtransaction_id sourceSubxid) txn
        (lock_transaction_ok lock).1 opened (.subtransaction sourceSubxid)
  | reconcile server slotGeneration =>
      obtain ⟨count, made⟩ := map_fst_ok ok
      obtain ⟨replay, _, ⟨_, rfl⟩ | ⟨_, rfl⟩⟩ := reconcile_cases made
      · exact headers_step_same rfl
      · exact headers_step_abort_lost db server slotGeneration
  | advanceFrontier slotGeneration =>
      obtain ⟨lsn, made⟩ := map_fst_ok ok
      obtain ⟨replay, _, ⟨_, rfl⟩ | ⟨target, _, rfl⟩⟩ := advance_frontier_cases made
      · exact headers_step_same rfl
      · exact headers_step_same rfl

-- An input sequence that an unfinished task of the source still has to pass.
def Awaiting (txn : IngressTransaction Payload) (sourceOid : Oid) (inputSeq : Nat) : Prop :=
  ∃ task ∈ txn.publications, task.sourceOid = sourceOid ∧
    ∃ cursor, task.nextInputSeq = some cursor ∧ cursor ≤ inputSeq ∧ inputSeq ≤ task.lastInputSeq

structure HeaderTasks (txn : IngressTransaction Payload) : Prop where
  cursors : ∀ task ∈ txn.publications, ∀ cursor, task.nextInputSeq = some cursor →
    task.firstInputSeq ≤ cursor ∧ cursor ≤ task.lastInputSeq
  covered : txn.status = .opened → ∀ row ∈ txn.changeLog, Awaiting txn row.sourceOid row.inputSeq

structure TaskFacts (db : IngressCatalog Payload) : Prop where
  headers : ∀ txn ∈ db.transactions.rows, HeaderTasks txn
  unique : ∀ a ∈ db.transactions.rows, ∀ b ∈ db.transactions.rows, a.status = .committed → b.status = .committed →
    a.commitLsn = b.commitLsn → a = b

theorem new_task_cursor {allocation : Allocation} {rows : List (ChangeRow Payload)} {task : PublicationTask}
    (member : task ∈ publicationTasks allocation rows) {cursor : Nat} (starts : task.nextInputSeq = some cursor) :
    (∃ row ∈ rows, row.inputSeq = cursor) ∧
      ∀ row ∈ rows, row.sourceOid = task.sourceOid → cursor ≤ row.inputSeq := by
  obtain ⟨source, _, rfl⟩ := List.mem_map.mp member
  obtain ⟨present, least⟩ := List.min?_eq_some_iff.mp starts
  obtain ⟨row, rowMember, rfl⟩ := List.mem_map.mp present
  refine ⟨⟨row, List.mem_of_mem_filter rowMember, rfl⟩, ?_⟩
  intro other otherMember sameSource
  exact least _ (List.mem_map.mpr ⟨other, List.mem_filter.mpr ⟨otherMember, by simpa using sameSource⟩, rfl⟩)

theorem header_tasks_admitted (txn : IngressTransaction Payload) (facts : HeaderTasks txn) (opened : txn.status = .opened)
    (allocation : Allocation) (rows : List (ChangeRow Payload)) (first : allocation.firstInputSeq = txn.eventCount + 1)
    (last : allocation.lastInputSeq = txn.eventCount + rows.length)
    (numbered : rows.map ChangeRow.inputSeq = List.range' (txn.eventCount + 1) rows.length) :
    HeaderTasks (admitRows allocation rows (publicationTasks allocation rows) txn) := by
  have within : ∀ row ∈ rows, txn.eventCount + 1 ≤ row.inputSeq ∧ row.inputSeq ≤ txn.eventCount + rows.length := by
    intro row member
    have inRange : row.inputSeq ∈ List.range' (txn.eventCount + 1) rows.length :=
      numbered ▸ List.mem_map.mpr ⟨row, member, rfl⟩
    rw [List.mem_range'_1] at inRange
    omega
  constructor
  · intro task member cursor starts
    rcases List.mem_append.mp member with old | new
    · exact facts.cursors task old cursor starts
    · obtain ⟨⟨row, rowMember, rfl⟩, _⟩ := new_task_cursor new starts
      obtain ⟨low, high⟩ := within row rowMember
      obtain ⟨source, _, rfl⟩ := List.mem_map.mp new
      exact ⟨first.symm ▸ low, last.symm ▸ high⟩
  · intro _ row member
    rcases List.mem_append.mp member with old | new
    · obtain ⟨task, taskMember, source, cursor, starts, low, high⟩ := facts.covered opened row old
      exact ⟨task, List.mem_append_left _ taskMember, source, cursor, starts, low, high⟩
    · have named : row.sourceOid ∈ sourceOids (rowEvents rows) :=
        (source_oids_mem _ _).mpr ⟨row.toIngressEvent, List.mem_map.mpr ⟨row, new, rfl⟩, rfl⟩
      obtain ⟨task, made, source, ends⟩ : ∃ task ∈ publicationTasks allocation rows,
          task.sourceOid = row.sourceOid ∧ task.lastInputSeq = allocation.lastInputSeq :=
        ⟨_, List.mem_map.mpr ⟨row.sourceOid, named, rfl⟩, rfl, rfl⟩
      have pending := List.countP_eq_length.mp (publication_tasks_pending allocation rows) task made
      obtain ⟨cursor, starts⟩ := Option.isSome_iff_exists.mp pending
      obtain ⟨_, least⟩ := new_task_cursor made starts
      refine ⟨task, List.mem_append_right _ made, source, cursor, starts, least row new source.symm, ?_⟩
      rw [ends, last]
      exact (within row new).2

theorem header_tasks_step (txn moved : IngressTransaction Payload) (facts : HeaderTasks txn) (opened : txn.status = .opened)
    (stepped : HeaderStep db txn moved) : HeaderTasks moved := by
  cases stepped with
  | admitted allocation rows first last numbered =>
      exact header_tasks_admitted txn facts opened allocation rows first last numbered
  | committed commitLsn endLsn fresh | aborted abortLsn => exact ⟨facts.cursors, fun wrong => by cases wrong⟩
  | subtransaction sourceSubxid =>
      unfold recordSubtransactionAbort
      split
      · exact facts
      · exact ⟨facts.cursors, facts.covered⟩

theorem header_step_committed (txn moved : IngressTransaction Payload) (opened : txn.status = .opened)
    (stepped : HeaderStep db txn moved) (committed : moved.status = .committed) :
    ∃ commitLsn endLsn, moved = sealCommitted commitLsn endLsn txn ∧
      ∀ other ∈ db.transactions.rows, other.status = .committed → other.commitLsn ≠ some commitLsn := by
  cases stepped with
  | admitted allocation rows first last numbered => simp [admitRows, opened] at committed
  | committed commitLsn endLsn fresh => exact ⟨commitLsn, endLsn, rfl, fresh⟩
  | aborted abortLsn => simp [sealAborted] at committed
  | subtransaction sourceSubxid =>
      rw [(record_subtransaction_frame sourceSubxid txn).2.1, opened] at committed
      cases committed

-- A committed header of the next state was committed before or was just sealed
-- from an open one at a commit LSN nobody else has.
theorem committed_before {db after : IngressCatalog Payload} (steps : HeadersStep db after)
    {moved : IngressTransaction Payload} (member : moved ∈ after.transactions.rows) (committed : moved.status = .committed) :
    moved ∈ db.transactions.rows ∨ ∃ txn ∈ db.transactions.rows, txn.status = .opened ∧
      ∃ commitLsn endLsn, moved = sealCommitted commitLsn endLsn txn ∧
        ∀ other ∈ db.transactions.rows, other.status = .committed → other.commitLsn ≠ some commitLsn := by
  rcases steps.backward moved member with old | ⟨identity, ingressTxnId, rfl⟩ | ⟨txn, old, opened, stepped⟩
  · exact .inl old
  · cases committed
  · exact .inr ⟨txn, old, opened, header_step_committed db txn moved opened stepped committed⟩

theorem committed_stays (steps : HeadersStep db after) (txn : IngressTransaction Payload)
    (member : txn ∈ db.transactions.rows) (sealed : txn.status ≠ .opened) :
    txn ∈ after.transactions.rows := by
  rcases steps.forward txn member with stays | ⟨opened, _⟩
  · exact stays
  · exact absurd opened sealed

theorem task_facts_step (facts : TaskFacts db) (steps : HeadersStep db after) :
    TaskFacts after := by
  constructor
  · intro moved member
    rcases steps.backward moved member with old | ⟨identity, ingressTxnId, rfl⟩ | ⟨txn, old, opened, stepped⟩
    · exact facts.headers moved old
    · exact ⟨by simp [freshTransaction], by simp [freshTransaction]⟩
    · exact header_tasks_step db txn moved (facts.headers txn old) opened stepped
  · intro a aMember b bMember aCommitted bCommitted same
    rcases committed_before steps aMember aCommitted with aOld | ⟨_, _, _, aCommit, _, aSealed, aFresh⟩
    · rcases committed_before steps bMember bCommitted with bOld | ⟨_, _, _, bCommit, _, bSealed, bFresh⟩
      · exact facts.unique a aOld b bOld aCommitted bCommitted same
      · exact absurd (same.trans (by rw [bSealed]; rfl)) (bFresh a aOld aCommitted)
    · rcases steps.once a aMember b bMember aCommitted bCommitted with aOld | bOld | equal
      · exact absurd (by rw [aSealed]; rfl) (aFresh a aOld aCommitted)
      · exact absurd (same.symm.trans (by rw [aSealed]; rfl)) (aFresh b bOld bCommitted)
      · exact equal

end Shiba.Publication
