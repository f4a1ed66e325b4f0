import Shiba.Ingress.Effects

set_option autoImplicit false

namespace Shiba.Ingress

open SerialTable

variable {Payload : Type}

-- The CHECK of ingress_transactions over its status and LSN columns.
def SealedConsistently (txn : IngressTransaction Payload) : Prop :=
  match txn.status with
  | .opened => txn.finalLsn = none ∧ txn.commitLsn = none ∧ txn.endLsn = none
  | .committed => ∃ commit last, txn.finalLsn = some commit ∧ txn.commitLsn = some commit ∧
      txn.endLsn = some last ∧ commit ≤ last
  | .aborted => ∃ final, txn.finalLsn = some final ∧ txn.commitLsn = none ∧ txn.endLsn = some final

-- Batch b+1 admitted the input sequences bound b + 1 .. bound (b + 1), and each
-- of its tasks carries that range.
structure BatchRanges (txn : IngressTransaction Payload) (bound : Nat → Nat) : Prop where
  starts : bound 0 = 0
  rises : ∀ batch < txn.batchCount, bound batch < bound (batch + 1)
  covers : bound txn.batchCount = txn.eventCount
  shared : ∀ task ∈ txn.publications, ∃ batch < txn.batchCount, task.batchOrdinal = batch + 1 ∧
    task.firstInputSeq = bound batch + 1 ∧ task.lastInputSeq = bound (batch + 1)
  present : ∀ batch < txn.batchCount, ∃ task ∈ txn.publications, task.batchOrdinal = batch + 1

def expectedPending (txn : IngressTransaction Payload) : Nat :=
  match txn.status with
  | .aborted => 0
  | _ => txn.publications.countP isPending

structure HeaderAccounts (codec : PayloadCodec Payload) (txn : IngressTransaction Payload) : Prop where
  numbered : txn.changeLog.map ChangeRow.inputSeq = List.range' 1 txn.eventCount
  measured : txn.payloadBytes = payloadTotal codec (rowEvents txn.changeLog)
  ranges : ∃ bound, BatchRanges txn bound
  pending : txn.pendingPublications = expectedPending txn
  sealed : SealedConsistently txn

def openBytes (slotGeneration : Nat) (txn : IngressTransaction Payload) : Nat :=
  if isOpenIn slotGeneration txn then txn.payloadBytes else 0

structure Accounts (codec : PayloadCodec Payload) (db : IngressCatalog Payload) : Prop where
  headers : ∀ txn ∈ db.transactions.rows, HeaderAccounts codec txn
  owned : ∀ txn ∈ db.transactions.rows, txn.slotGeneration < db.replayState.next
  balanced : ∀ replay ∈ db.replayState.rows,
    replay.openPayloadBytes = db.transactions.total (openBytes replay.slotGeneration)

theorem accounts_empty (codec : PayloadCodec Payload) : Accounts codec (emptyIngress : IngressCatalog Payload) := by
  constructor <;> intro row member <;> simp [emptyIngress, Table.empty] at member

theorem open_bytes_elsewhere (slotGeneration : Nat) (txn : IngressTransaction Payload)
    (elsewhere : txn.slotGeneration ≠ slotGeneration) : openBytes slotGeneration txn = 0 := by
  simp [openBytes, isOpenIn, elsewhere]

theorem open_bytes_opened {txn : IngressTransaction Payload} (opened : txn.status = .opened) :
    openBytes txn.slotGeneration txn = txn.payloadBytes := by
  simp [openBytes, isOpenIn, opened]

theorem open_bytes_sealed (slotGeneration : Nat) (txn : IngressTransaction Payload) (sealed : txn.status ≠ .opened) :
    openBytes slotGeneration txn = 0 := by
  simp [openBytes, isOpenIn, sealed]

theorem open_bytes_congr (slotGeneration : Nat) (left right : IngressTransaction Payload)
    (generation : left.slotGeneration = right.slotGeneration) (status : left.status = right.status)
    (bytes : left.payloadBytes = right.payloadBytes) : openBytes slotGeneration left = openBytes slotGeneration right := by
  unfold openBytes isOpenIn
  rw [generation, status, bytes]

-- A replay update that leaves the counter alone cannot unbalance it.
theorem accounts_update_replay (codec : PayloadCodec Payload) (db : IngressCatalog Payload) (accounts : Accounts codec db)
    (slotGeneration : Nat) (change : ReplayState → ReplayState)
    (keeps : ∀ replay, (change replay).slotGeneration = replay.slotGeneration)
    (same : ∀ replay, (change replay).openPayloadBytes = replay.openPayloadBytes) :
    Accounts codec (db.updateReplay slotGeneration change keeps) := by
  refine ⟨accounts.headers, accounts.owned, ?_⟩
  intro replay member
  rcases (db.mem_update_replay _ _ keeps _).mp member with ⟨old, _⟩ | ⟨row, old, _, rfl⟩
  · exact accounts.balanced replay old
  · rw [same, keeps]
    exact accounts.balanced row old

section OneHeader

variable (codec : PayloadCodec Payload) (db : IngressCatalog Payload) (accounts : Accounts codec db)
  (txn : IngressTransaction Payload) (found : db.findTransaction txn.ingressTxnId = some txn)
  (change : IngressTransaction Payload → IngressTransaction Payload)
  (keepsId : ∀ row, (change row).ingressTxnId = row.ingressTxnId)
  (stays : (change txn).slotGeneration = txn.slotGeneration) (header : HeaderAccounts codec (change txn))

include accounts found stays header

theorem update_header_rows :
    (∀ row ∈ (db.updateTransaction txn.ingressTxnId change keepsId).transactions.rows, HeaderAccounts codec row) ∧
      ∀ row ∈ (db.updateTransaction txn.ingressTxnId change keepsId).transactions.rows,
        row.slotGeneration < db.replayState.next := by
  constructor
  · intro row member
    rcases (db.mem_update_transaction _ _ keepsId txn row found).mp member with ⟨old, _⟩ | rfl
    · exact accounts.headers row old
    · exact header
  · intro row member
    rcases (db.mem_update_transaction _ _ keepsId txn row found).mp member with ⟨old, _⟩ | rfl
    · exact accounts.owned row old
    · rw [stays]
      exact accounts.owned txn (db.transactions.mem_of_find _ _ found).1

theorem accounts_update_header
    (free : ∀ slotGeneration, openBytes slotGeneration (change txn) = openBytes slotGeneration txn) :
    Accounts codec (db.updateTransaction txn.ingressTxnId change keepsId) := by
  obtain ⟨headers, owned⟩ := update_header_rows codec db accounts txn found change keepsId stays header
  refine ⟨headers, owned, ?_⟩
  intro row member
  have total := db.transactions.total_update txn.ingressTxnId change keepsId (openBytes row.slotGeneration) txn found
  rw [free] at total
  exact (accounts.balanced row member).trans (Nat.add_right_cancel total).symm

-- The common shape of admission, commit and abort: one header changes and the
-- counter of its generation moves by the bytes that open or close with it.
theorem accounts_update (replay : ReplayState) (active : db.activeReplay txn.slotGeneration = some replay)
    (move : ReplayState → ReplayState) (keepsGeneration : ∀ row, (move row).slotGeneration = row.slotGeneration)
    (paid : (move replay).openPayloadBytes + openBytes txn.slotGeneration txn =
      replay.openPayloadBytes + openBytes txn.slotGeneration (change txn)) :
    Accounts codec ((db.updateTransaction txn.ingressTxnId change keepsId).updateReplay txn.slotGeneration move
      keepsGeneration) := by
  obtain ⟨headers, owned⟩ := update_header_rows codec db accounts txn found change keepsId stays header
  refine ⟨headers, owned, ?_⟩
  intro row member
  have total := db.transactions.total_update txn.ingressTxnId change keepsId (openBytes row.slotGeneration) txn found
  rcases (IngressCatalog.mem_update_replay _ _ _ keepsGeneration _).mp member with ⟨old, other⟩ | ⟨before, old, same, rfl⟩
  · have balanced := accounts.balanced row old
    rw [open_bytes_elsewhere _ _ (Ne.symm other), open_bytes_elsewhere _ _ (stays ▸ Ne.symm other)] at total
    exact balanced.trans total.symm
  · obtain ⟨replayMember, sameGeneration, _⟩ := db.active_replay_some _ _ active
    have isReplay : before = replay :=
      db.replayState.row_unique before replay old replayMember (same.trans sameGeneration.symm)
    subst isReplay
    have balanced := accounts.balanced before old
    rw [keepsGeneration, same] at total ⊢
    rw [same] at balanced
    rw [IngressCatalog.update_replay_transactions, IngressCatalog.updateTransaction]
    simp only
    omega

end OneHeader

variable (sourceSubxid first : Nat) (events : List (IngressEvent Payload)) {txn : IngressTransaction Payload}
  (codec : PayloadCodec Payload) (db : IngressCatalog Payload)

theorem header_fresh (identity : ReplayIdentity) (ingressTxnId : Nat) :
    HeaderAccounts codec (freshTransaction identity ingressTxnId : IngressTransaction Payload) where
  numbered := rfl
  measured := rfl
  ranges := ⟨fun _ => 0, ⟨rfl, by simp [freshTransaction], rfl, by simp [freshTransaction], by simp [freshTransaction]⟩⟩
  pending := rfl
  sealed := ⟨rfl, rfl, rfl⟩

theorem header_committed {codec : PayloadCodec Payload} (header : HeaderAccounts codec txn) (opened : txn.status = .opened)
    {commitLsn endLsn : Lsn} (ordered : commitLsn ≤ endLsn) : HeaderAccounts codec (sealCommitted commitLsn endLsn txn) := by
  obtain ⟨bound, ranges⟩ := header.ranges
  refine ⟨header.numbered, header.measured, ⟨bound, ?_⟩, ?_, ⟨commitLsn, endLsn, rfl, rfl, rfl, ordered⟩⟩
  · exact ⟨ranges.starts, ranges.rises, ranges.covers, ranges.shared, ranges.present⟩
  · have pending := header.pending
    simp only [expectedPending, opened] at pending
    exact pending

theorem header_aborted (txn : IngressTransaction Payload) (header : HeaderAccounts codec txn) (opened : txn.status = .opened)
    (abortLsn : Lsn) :
    HeaderAccounts codec (sealAborted abortLsn txn) := by
  obtain ⟨bound, ranges⟩ := header.ranges
  have uncommitted : txn.commitLsn = none := by
    have sealed := header.sealed
    simp only [SealedConsistently, opened] at sealed
    exact sealed.2.1
  refine ⟨header.numbered, header.measured, ⟨bound, ?_⟩, rfl, ⟨abortLsn, rfl, uncommitted, rfl⟩⟩
  exact ⟨ranges.starts, ranges.rises, ranges.covers, ranges.shared, ranges.present⟩

theorem header_record_subtransaction (txn : IngressTransaction Payload) (header : HeaderAccounts codec txn)
    (sourceSubxid : Nat) :
    HeaderAccounts codec (recordSubtransactionAbort sourceSubxid txn) := by
  unfold recordSubtransactionAbort
  split
  · exact header
  · obtain ⟨bound, ranges⟩ := header.ranges
    refine ⟨header.numbered, header.measured, ⟨bound, ?_⟩, header.pending, header.sealed⟩
    exact ⟨ranges.starts, ranges.rises, ranges.covers, ranges.shared, ranges.present⟩

theorem record_subtransaction_frame (txn : IngressTransaction Payload) :
    (recordSubtransactionAbort sourceSubxid txn).slotGeneration = txn.slotGeneration ∧
      (recordSubtransactionAbort sourceSubxid txn).status = txn.status ∧
      (recordSubtransactionAbort sourceSubxid txn).payloadBytes = txn.payloadBytes := by
  unfold recordSubtransactionAbort
  split <;> exact ⟨rfl, rfl, rfl⟩

theorem number_rows_seqs :
    (numberRows first events).map ChangeRow.inputSeq = List.range' first events.length := by
  simp only [numberRows, List.map_map, Function.comp_def]
  exact List.zipIdx_map_snd first events

theorem number_rows_length :
    (numberRows first events).length = events.length := by
  simp [numberRows]

theorem source_oids_mem (source : Oid) :
    source ∈ sourceOids events ↔ ∃ event ∈ events, event.sourceOid = source := by
  simp [sourceOids]

-- Every source of a batch has an event, so every new task has a cursor.
theorem publication_tasks_pending (allocation : Allocation) (inserted : List (ChangeRow Payload)) :
    (publicationTasks allocation inserted).countP isPending = (publicationTasks allocation inserted).length := by
  rw [List.countP_eq_length]
  intro task member
  obtain ⟨source, named, rfl⟩ := List.mem_map.mp member
  obtain ⟨event, eventMember, sameSource⟩ := (source_oids_mem _ _).mp named
  obtain ⟨row, rowMember, rfl⟩ := List.mem_map.mp eventMember
  have present : row.inputSeq ∈ (inserted.filter fun row => row.sourceOid = source).map ChangeRow.inputSeq :=
    List.mem_map.mpr ⟨row, List.mem_filter.mpr ⟨rowMember, by simpa using sameSource⟩, rfl⟩
  simp only [isPending]
  cases least : ((inserted.filter fun row => row.sourceOid = source).map ChangeRow.inputSeq).min? with
  | none => simp [List.min?_eq_none_iff.mp least] at present
  | some value => rfl

theorem payload_total_append (left right : List (IngressEvent Payload)) :
    payloadTotal codec (left ++ right) = payloadTotal codec left + payloadTotal codec right := by
  simp [payloadTotal]

-- A new batch extends the partition by one range.
theorem batch_ranges_admitted {bound : Nat → Nat} (ranges : BatchRanges txn bound) {count : Nat} (bytes pending : Nat)
    (rows : List (ChangeRow Payload)) {tasks : List PublicationTask} (positive : 0 < count) (present : tasks ≠ [])
    (batch : ∀ task ∈ tasks, task.batchOrdinal = txn.batchCount + 1 ∧ task.firstInputSeq = txn.eventCount + 1 ∧
      task.lastInputSeq = txn.eventCount + count) :
    BatchRanges { txn with
        changeLog := rows
        publications := txn.publications ++ tasks
        eventCount := txn.eventCount + count
        payloadBytes := bytes
        batchCount := txn.batchCount + 1
        pendingPublications := pending }
      (fun index => if index ≤ txn.batchCount then bound index else txn.eventCount + count) := by
  have atEnd : bound txn.batchCount = txn.eventCount := ranges.covers
  refine ⟨?_, ?_, ?_, ?_, ?_⟩
  · simpa using ranges.starts
  · intro index below
    rcases Nat.lt_or_ge index txn.batchCount with old | new
    · have rises := ranges.rises index old
      simp only [Nat.le_of_lt old, Nat.succ_le_of_lt old, if_true]
      exact rises
    · have last : index = txn.batchCount := Nat.le_antisymm (Nat.le_of_lt_succ below) new
      subst last
      simp only [le_refl, if_true, Nat.not_succ_le_self, if_false]
      omega
  · simp
  · intro task member
    rcases List.mem_append.mp member with old | new
    · obtain ⟨index, below, ordinal, first, last⟩ := ranges.shared task old
      refine ⟨index, Nat.lt_succ_of_lt below, ordinal, ?_, ?_⟩
      · simpa [Nat.le_of_lt below] using first
      · simpa [Nat.succ_le_of_lt below] using last
    · obtain ⟨ordinal, first, last⟩ := batch task new
      refine ⟨txn.batchCount, Nat.lt_succ_self _, ordinal, ?_, ?_⟩
      · simpa [atEnd] using first
      · simp only [if_neg (Nat.not_succ_le_self txn.batchCount)]
        exact last
  · intro index below
    rcases Nat.lt_or_ge index txn.batchCount with old | new
    · obtain ⟨task, member, ordinal⟩ := ranges.present index old
      exact ⟨task, List.mem_append_left _ member, ordinal⟩
    · have last : index = txn.batchCount := Nat.le_antisymm (Nat.le_of_lt_succ below) new
      obtain ⟨task, member⟩ := List.exists_mem_of_ne_nil tasks present
      exact ⟨task, List.mem_append_right _ member, last ▸ (batch task member).1⟩

theorem header_admitted {codec : PayloadCodec Payload} (header : HeaderAccounts codec txn) (opened : txn.status = .opened)
    {replay : ReplayFacts} {taskCount : Nat} {allocation : Allocation} {events : List (IngressEvent Payload)}
    (inserts : replay.insertedCount ≠ 0) (allocated : allocate txn replay taskCount = .ok allocation)
    (matched : insertedMatches codec replay allocation (allocatedRows allocation replay events) = true)
    (tasks : (publicationTasks allocation (allocatedRows allocation replay events)).length = allocation.taskCount)
    (count : (allocatedRows allocation replay events).length = replay.insertedCount) :
    HeaderAccounts codec (admitRows allocation (allocatedRows allocation replay events)
      (publicationTasks allocation (allocatedRows allocation replay events)) txn) := by
  have isAllocation := allocate_ok allocated
  obtain ⟨bound, ranges⟩ := header.ranges
  have pending := header.pending
  simp only [expectedPending, opened] at pending
  simp only [insertedMatches, Bool.and_eq_true, decide_eq_true_eq] at matched
  have bytes := matched.2
  have present : publicationTasks allocation (allocatedRows allocation replay events) ≠ [] := by
    intro empty
    simp only [publicationTasks, List.map_eq_nil_iff] at empty
    cases rows : allocatedRows allocation replay events with
    | nil => simp [rows] at count; omega
    | cons row rest =>
        have named : row.sourceOid ∈ sourceOids (rowEvents (allocatedRows allocation replay events)) :=
          (source_oids_mem _ _).mpr ⟨row.toIngressEvent, by simp [rows, rowEvents], rfl⟩
        simp [empty] at named
  have batch : ∀ task ∈ publicationTasks allocation (allocatedRows allocation replay events),
      task.batchOrdinal = txn.batchCount + 1 ∧ task.firstInputSeq = txn.eventCount + 1 ∧
        task.lastInputSeq = txn.eventCount + replay.insertedCount := by
    intro task member
    obtain ⟨source, _, rfl⟩ := List.mem_map.mp member
    exact ⟨by rw [isAllocation], by rw [isAllocation], by rw [isAllocation]⟩
  refine ⟨?_, ?_,
    ⟨fun index => if index ≤ txn.batchCount then bound index else txn.eventCount + replay.insertedCount, ?_⟩, ?_, ?_⟩
  · have first : allocation.firstInputSeq = 1 + txn.eventCount := by
      rw [isAllocation]
      exact Nat.add_comm _ _
    have events : allocation.eventCount = txn.eventCount + replay.insertedCount := by rw [isAllocation]
    simp only [admitRows, List.map_append, header.numbered, allocatedRows, number_rows_seqs]
    rw [allocatedRows, number_rows_length] at count
    rw [count, first, events, ← List.range'_append_1]
  · simp only [admitRows, rowEvents, List.map_append]
    rw [payload_total_append, ← rowEvents, ← header.measured, ← rowEvents, bytes, isAllocation]
  · have extended := batch_ranges_admitted ranges allocation.payloadBytes
      allocation.pendingPublications (txn.changeLog ++ allocatedRows allocation replay events) (Nat.pos_of_ne_zero inserts) present batch
    have events : allocation.eventCount = txn.eventCount + replay.insertedCount := by rw [isAllocation]
    have batches : allocation.batchCount = txn.batchCount + 1 := by rw [isAllocation]
    simp only [admitRows, events, batches]
    exact extended
  · simp only [expectedPending, admitRows, opened, List.countP_append, publication_tasks_pending, tasks, ← pending]
    rw [isAllocation]
  · simp only [SealedConsistently, admitRows, opened]
    have sealed := header.sealed
    simp only [SealedConsistently, opened] at sealed
    exact sealed

theorem accounts_open_generation (accounts : Accounts codec db) (server : ServerFacts) (slotName : String) (baseline : Lsn) :
    Accounts codec (openGeneration db server slotName baseline) := by
  refine ⟨accounts.headers, fun txn member => Nat.lt_succ_of_lt (accounts.owned txn member), ?_⟩
  intro replay member
  rcases (mem_open_generation db server slotName baseline replay).mp member with old | rfl
  · exact accounts.balanced replay old
  · have nothing : ∀ txn ∈ db.transactions.rows, openBytes db.replayState.next txn = 0 :=
      fun txn present => open_bytes_elsewhere _ _ (Nat.ne_of_lt (accounts.owned txn present))
    have empty := db.transactions.total_congr (openBytes db.replayState.next) (fun _ => 0) nothing
    have zero : db.transactions.total (fun _ => 0) = 0 := by simp [Table.total]
    exact (empty.trans zero).symm

theorem accounts_open_transaction (accounts : Accounts codec db) (identity : ReplayIdentity)
    (known : identity.slotGeneration < db.replayState.next) :
    Accounts codec (openTransaction db identity) := by
  refine ⟨?_, ?_, ?_⟩
  · intro txn member
    rcases (mem_open_transaction db identity txn).mp member with old | rfl
    · exact accounts.headers txn old
    · exact header_fresh codec identity _
  · intro txn member
    rcases (mem_open_transaction db identity txn).mp member with old | rfl
    · exact accounts.owned txn old
    · exact known
  · intro replay member
    have empty : openBytes replay.slotGeneration
        (freshTransaction identity db.transactions.next : IngressTransaction Payload) = 0 := by
      unfold openBytes
      split <;> rfl
    have total := db.transactions.total_insert (freshTransaction identity) (fun _ => rfl)
      (openBytes replay.slotGeneration)
    rw [empty] at total
    exact (accounts.balanced replay member).trans total.symm

theorem accounts_abort_lost (accounts : Accounts codec db) (server : ServerFacts) (slotGeneration : Nat) :
    Accounts codec (abortLost db server slotGeneration) := by
  have total : ∀ generation, (abortLost db server slotGeneration).transactions.total (openBytes generation) =
      db.transactions.total fun txn =>
        openBytes generation (if isOpenIn slotGeneration txn then sealLost txn else txn) :=
    fun generation => Table.total_update_where db.transactions (isOpenIn slotGeneration) sealLost (fun _ => rfl) _
  refine ⟨?_, ?_, ?_⟩
  · intro txn member
    obtain ⟨before, old, rfl⟩ := (mem_abort_lost db server slotGeneration txn).mp member
    split
    · rename_i lost
      have opened : before.status = .opened := by
        simp only [isOpenIn, decide_eq_true_eq] at lost
        exact lost.2
      exact header_aborted codec before (accounts.headers before old) opened _
    · exact accounts.headers before old
  · intro txn member
    obtain ⟨before, old, rfl⟩ := (mem_abort_lost db server slotGeneration txn).mp member
    have owned := accounts.owned before old
    split <;> exact owned
  · intro replay member
    rw [total]
    rcases (mem_abort_lost_replay db server slotGeneration replay).mp member with ⟨old, other⟩ | ⟨before, old, same, rfl⟩
    · rw [accounts.balanced replay old]
      apply Table.total_congr
      intro txn _
      split
      · rename_i lost
        have elsewhere : txn.slotGeneration ≠ replay.slotGeneration := by
          simp only [isOpenIn, decide_eq_true_eq] at lost
          exact fun eq => other (eq.symm.trans lost.1)
        rw [open_bytes_elsewhere _ _ elsewhere, open_bytes_sealed _ _ (by simp [sealLost, sealAborted])]
      · rfl
    · have nothing : ∀ txn ∈ db.transactions.rows,
          openBytes before.slotGeneration (if isOpenIn slotGeneration txn then sealLost txn else txn) = 0 := by
        intro txn _
        split
        · exact open_bytes_sealed _ _ (by simp [sealLost, sealAborted])
        · rename_i kept
          simp [openBytes, same, kept]
      have zero : db.transactions.total (fun _ => 0) = 0 := by simp [Table.total]
      exact ((Table.total_congr _ _ (fun _ => 0) nothing).trans zero).symm

end Shiba.Ingress
