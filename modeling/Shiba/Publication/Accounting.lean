import Shiba.Ingress.Accounting
import Shiba.Publication.Machine

set_option autoImplicit false

namespace Shiba.Publication

open SerialTable Transition Shiba.Ingress Shiba.Stream

variable {Payload Row : Type}

theorem pending_moved (task : Task) (next : Option Nat) (rows : List PublicationTask) :
    (rows.map (moveCursor task next)).countP isPending +
        (if next.isSome then 0 else (rows.filter (atCursor task)).length) = rows.countP isPending := by
  induction rows with
  | nil => simp
  | cons row rest ih =>
      by_cases hit : atCursor task row
      · have waiting : isPending row = true := by
          simp only [atCursor, Bool.and_eq_true, decide_eq_true_eq] at hit
          simp [isPending, hit.2]
        cases next with
        | none =>
            simp only [Option.isSome_none, Bool.false_eq_true, if_false] at ih ⊢
            simp only [List.map_cons, List.countP_cons, List.filter_cons_of_pos hit, List.length_cons, moveCursor, hit,
              if_true, isPending, Option.isSome_none]
            simp only [isPending] at waiting ih
            simp only [waiting, if_true, Bool.false_eq_true, if_false]
            omega
        | some seq =>
            simp only [Option.isSome_some, if_true, Nat.add_zero] at ih ⊢
            simp only [List.map_cons, List.countP_cons, ih, waiting, if_true]
            simp [moveCursor, hit, isPending]
      · have kept : moveCursor task next row = row := by simp [moveCursor, hit]
        rw [List.map_cons, kept, List.filter_cons_of_neg hit, List.countP_cons, List.countP_cons]
        omega

theorem advance_header_pending (task : Task) (outcome : SourcePublicationOutcome) (next : Option Nat)
    (txn : IngressTransaction Payload) (pending : txn.pendingPublications = txn.publications.countP isPending)
    (moving : moves outcome = true) (cursor : outcome = .appended ↔ next.isSome = true)
    (one : (txn.publications.filter (atCursor task)).length = 1) :
    (advanceHeader task (finishes outcome) next txn).pendingPublications =
      (advanceHeader task (finishes outcome) next txn).publications.countP isPending := by
  have moved := pending_moved task next txn.publications
  cases outcome with
  | appended =>
      rw [if_pos (cursor.mp rfl), Nat.add_zero] at moved
      exact pending.trans moved.symm
  | completed | discarded =>
      have still : ¬ next.isSome = true := fun isSome => by cases cursor.mpr isSome
      rw [if_neg still, one] at moved
      simp only [advanceHeader, finishes, if_true]
      omega
  | idle => cases moving
  | blocked => cases moving

theorem header_advanced {codec : PayloadCodec Payload} {txn : IngressTransaction Payload}
    (header : HeaderAccounts codec txn) (committed : txn.status = .committed) {task : Task}
    {outcome : SourcePublicationOutcome} {next : Option Nat} (moving : moves outcome = true)
    (cursor : outcome = .appended ↔ next.isSome = true)
    (one : (txn.publications.filter (atCursor task)).length = 1) :
    HeaderAccounts codec (advanceHeader task (finishes outcome) next txn) := by
  obtain ⟨bound, ranges⟩ := header.ranges
  have keeps : ∀ row, (moveCursor task next row).batchOrdinal = row.batchOrdinal ∧
      (moveCursor task next row).firstInputSeq = row.firstInputSeq ∧
      (moveCursor task next row).lastInputSeq = row.lastInputSeq := by
    intro row
    unfold moveCursor
    split <;> exact ⟨rfl, rfl, rfl⟩
  have pending := header.pending
  simp only [expectedPending, committed] at pending
  refine ⟨header.numbered, header.measured, ⟨bound, ranges.starts, ranges.rises, ranges.covers, ?_, ?_⟩, ?_, header.sealed⟩
  · intro row member
    obtain ⟨before, old, rfl⟩ := List.mem_map.mp member
    obtain ⟨batch, below, ordinal, first, last⟩ := ranges.shared before old
    obtain ⟨sameOrdinal, sameFirst, sameLast⟩ := keeps before
    exact ⟨batch, below, sameOrdinal.trans ordinal, sameFirst.trans first, sameLast.trans last⟩
  · intro batch below
    obtain ⟨row, member, ordinal⟩ := ranges.present batch below
    exact ⟨_, List.mem_map.mpr ⟨row, member, rfl⟩, (keeps row).1.trans ordinal⟩
  · have still : (advanceHeader task (finishes outcome) next txn).status = .committed := committed
    simp only [expectedPending, still]
    exact advance_header_pending task outcome next txn pending moving cursor one

theorem accounts_publish {codec : PayloadCodec Payload} {rowCodec : RowCodec Payload Row}
    {db after : SourceCatalog Payload Row} {slotGeneration : Nat} {publication : SourcePublication}
    (accounts : Accounts codec db.ingress)
    (ok : publishSourceBatch rowCodec db slotGeneration = .ok (after, publication)) : Accounts codec after.ingress := by
  obtain ⟨replay, _, ⟨_, rfl, _⟩ | ⟨candidate, txn, task, next, _, locked, _, _, advanced⟩⟩ := publish_source_batch_cases ok
  · exact accounts
  · split at advanced
    · rename_i moving
      obtain ⟨cursor, one, _, same⟩ := advance_task_cases advanced
      obtain ⟨found, committed, _, _⟩ := lock_task_cases locked
      obtain ⟨member, named⟩ := db.ingress.transactions.mem_of_find _ _ found
      simp only [committedIn, decide_eq_true_eq] at committed
      rw [← named] at found
      rw [same]
      exact accounts_update_header codec db.ingress accounts txn found
        (advanceHeader task (finishes publication.outcome) next) (fun _ => rfl) rfl
        (header_advanced (accounts.headers txn member) committed.2 moving cursor one)
        (fun _ => rfl)
    · rw [← Except.ok.inj advanced]
      exact accounts

section Ingress

variable {codec : PayloadCodec Payload} {db after : IngressCatalog Payload} (accounts : Accounts codec db)

include accounts

theorem accounts_commit {ingressTxnId : Nat} {commitLsn endLsn : Lsn} {facts : CommitFacts}
    (ok : commitIngressTransaction db ingressTxnId commitLsn endLsn = .ok (after, facts)) : Accounts codec after := by
  obtain ⟨replay, txn, lock, ordered, ⟨_, _, _, rfl⟩ | ⟨opened, _, covered, rfl⟩⟩ := commit_cases ok
  · exact accounts_update_replay codec db accounts _ (persistThrough endLsn) (fun _ => rfl) (fun _ => rfl)
  · obtain ⟨found, active⟩ := lock_transaction_ok lock
    obtain ⟨member, named⟩ := db.transactions.mem_of_find _ _ found
    subst named
    refine accounts_update codec db accounts txn found (sealCommitted commitLsn endLsn) (fun _ => rfl) rfl
      (header_committed (accounts.headers txn member) opened ordered) replay active
      (fun row => persistThrough endLsn (releasePayload txn.payloadBytes row)) (fun _ => rfl) ?_
    rw [open_bytes_opened opened, open_bytes_sealed _ _ (by simp [sealCommitted])]
    simp only [persistThrough, releasePayload]
    omega

theorem accounts_abort {ingressTxnId : Nat} {abortLsn : Lsn} {finalized : Bool}
    (ok : abortIngressTransaction db ingressTxnId abortLsn = .ok (after, finalized)) : Accounts codec after := by
  obtain ⟨replay, txn, lock, ⟨_, _, rfl⟩ | ⟨opened, covered, rfl⟩⟩ := abort_cases ok
  · exact accounts
  · obtain ⟨found, active⟩ := lock_transaction_ok lock
    obtain ⟨member, named⟩ := db.transactions.mem_of_find _ _ found
    subst named
    refine accounts_update codec db accounts txn found (sealAborted abortLsn) (fun _ => rfl) rfl
      (header_aborted codec txn (accounts.headers txn member) opened abortLsn) replay active
      (releasePayload txn.payloadBytes) (fun _ => rfl) ?_
    rw [open_bytes_opened opened, open_bytes_sealed _ _ (by simp [sealAborted])]
    simp only [releasePayload]
    omega

theorem accounts_abort_subtransaction {ingressTxnId sourceSubxid : Nat} {recorded : Bool}
    (ok : abortIngressSubtransaction db ingressTxnId sourceSubxid = .ok (after, recorded)) : Accounts codec after := by
  obtain ⟨_, txn, lock, _, rfl⟩ := abort_subtransaction_cases db after ingressTxnId sourceSubxid recorded ok
  obtain ⟨found, _⟩ := lock_transaction_ok lock
  obtain ⟨member, named⟩ := db.transactions.mem_of_find _ _ found
  subst named
  obtain ⟨stays, status, bytes⟩ := record_subtransaction_frame sourceSubxid txn
  exact accounts_update_header codec db accounts txn found (recordSubtransactionAbort sourceSubxid)
    (record_subtransaction_id sourceSubxid) stays
    (header_record_subtransaction codec txn (accounts.headers txn member) sourceSubxid)
    (fun slotGeneration => open_bytes_congr slotGeneration _ _ stays status bytes)

theorem accounts_ensure_generation {server : ServerFacts} {slot : Option LogicalSlot} {slotName : String}
    {forceNew : Bool} {generation : Nat}
    (ok : ensureIngressGeneration db server slot slotName forceNew = .ok (after, generation)) : Accounts codec after := by
  rcases ensure_generation_cases ok with rfl | ⟨baseline, fresh | ⟨old, fresh⟩⟩
  · exact accounts
  · rw [insert_generation_cases fresh]
    exact accounts_open_generation codec db accounts server slotName baseline
  · rw [insert_generation_cases fresh]
    exact accounts_open_generation codec _
      (accounts_update_replay codec db accounts old retireReplay (fun _ => rfl) (fun _ => rfl)) server slotName baseline

theorem accounts_retire_generation (slotName : String) : Accounts codec (retireIngressGeneration db slotName) := by
  refine ⟨accounts.headers, accounts.owned, ?_⟩
  intro replay member
  obtain ⟨before, old, rfl⟩ := (Table.mem_update_where db.replayState _ retireReplay (fun _ => rfl) replay).mp member
  have balanced := accounts.balanced before old
  split <;> exact balanced

variable [DecidableEq Payload]

theorem accounts_admit {settings : AdmissionSettings Payload} {ingressTxnId : Nat} {events : List (IngressEvent Payload)}
    {facts : AdmissionFacts} (ok : admitEvents codec settings db ingressTxnId events = .ok (after, facts)) :
    Accounts codec after := by
  obtain ⟨locked, txn, lock, _, _, ⟨_, rfl⟩ | ⟨opened, inserts, allocation, allocated, matched, tasks, count, _, rfl⟩⟩ :=
    admit_events_cases ok
  · exact accounts
  · obtain ⟨found, active⟩ := lock_transaction_ok lock
    obtain ⟨member, named⟩ := db.transactions.mem_of_find _ _ found
    rw [← named] at found
    have header := header_admitted (accounts.headers txn member) opened inserts allocated matched tasks count
    refine accounts_update codec db accounts txn found
      (admitRows allocation (allocatedRows allocation (classifyReplay codec txn events) events)
        (publicationTasks allocation (allocatedRows allocation (classifyReplay codec txn events) events)))
      (fun _ => rfl) rfl header locked active (stagePayload (classifyReplay codec txn events).batchPayloadBytes)
      (fun _ => rfl) ?_
    have bytes := congrArg Allocation.payloadBytes (allocate_ok allocated)
    have now : openBytes txn.slotGeneration
        (admitRows allocation (allocatedRows allocation (classifyReplay codec txn events) events)
          (publicationTasks allocation (allocatedRows allocation (classifyReplay codec txn events) events)) txn) =
        allocation.payloadBytes := open_bytes_opened opened
    rw [open_bytes_opened opened, now, bytes]
    simp only [stagePayload]
    omega

theorem accounts_ingress_step (call : IngressCall Payload) (ok : ingressStep codec db call = .ok after) :
    Accounts codec after := by
  cases call with
  | ensureGeneration server slot slotName forceNew =>
      obtain ⟨generation, ensured⟩ := map_fst_ok ok
      exact accounts_ensure_generation accounts ensured
  | retireGeneration slotName =>
      cases ok
      exact accounts_retire_generation accounts slotName
  | claim identity =>
      obtain ⟨row, made⟩ := map_fst_ok ok
      obtain ⟨replay, active, ⟨_, _, rfl, _⟩ | ⟨_, _, rfl, _⟩⟩ := claim_cases db after identity row made
      · exact accounts
      · obtain ⟨member, same, _⟩ := db.active_replay_some _ _ active
        exact accounts_open_transaction codec db accounts identity (same ▸ db.replayState.below replay member)
  | admitted settings ingressTxnId events =>
      obtain ⟨facts, made⟩ := map_fst_ok ok
      exact accounts_admit accounts made
  | commit ingressTxnId commitLsn endLsn =>
      obtain ⟨facts, made⟩ := map_fst_ok ok
      exact accounts_commit accounts made
  | abort ingressTxnId abortLsn =>
      obtain ⟨finalized, made⟩ := map_fst_ok ok
      exact accounts_abort accounts made
  | abortSubtransaction ingressTxnId sourceSubxid =>
      obtain ⟨recorded, made⟩ := map_fst_ok ok
      exact accounts_abort_subtransaction accounts made
  | reconcile server slotGeneration =>
      obtain ⟨count, made⟩ := map_fst_ok ok
      obtain ⟨replay, _, ⟨_, rfl⟩ | ⟨_, rfl⟩⟩ := reconcile_cases made
      · exact accounts
      · exact accounts_abort_lost codec db accounts server slotGeneration
  | advanceFrontier slotGeneration =>
      obtain ⟨lsn, made⟩ := map_fst_ok ok
      obtain ⟨replay, _, ⟨_, rfl⟩ | ⟨target, _, rfl⟩⟩ := advance_frontier_cases made
      · exact accounts
      · exact accounts_update_replay codec db accounts slotGeneration (publishThrough target) (fun _ => rfl) (fun _ => rfl)

end Ingress

section

variable {streamId : Nat} {codec : PayloadCodec Payload} {rowCodec : RowCodec Payload Row}
  {change : EffectStream Row → Except Fault (EffectStream Row)}

variable {db after : SourceCatalog Payload Row}

theorem on_stream_ok (ok : onStream db streamId change = .ok after) :
    ∃ stream moved, db.streams.find? streamId = some stream ∧ change stream = .ok moved ∧
      after = ⟨db.ingress, storeStream db.streams streamId moved⟩ := by
  unfold onStream at ok
  cases found : db.streams.find? streamId with
  | none => simp [found] at ok
  | some stream =>
      cases changed : change stream with
      | error fault => simp [found, changed, Except.map] at ok
      | ok moved =>
          simp only [found, changed, Option.elim_some, Except.map, Except.ok.injEq] at ok
          exact ⟨stream, moved, rfl, changed, ok.symm⟩

theorem on_stream_ingress (ok : onStream db streamId change = .ok after) :
    after.ingress = db.ingress := by
  obtain ⟨_, _, _, _, rfl⟩ := on_stream_ok ok
  rfl

theorem stream_step_ingress {call : StreamCall} (ok : streamStep db call = .ok after) : after.ingress = db.ingress := by
  cases call with
  | ensureSource slotGeneration sourceOid targetRows targetBytes =>
      obtain ⟨streamId, ensured⟩ := map_fst_ok ok
      unfold ensureSourceStream at ensured
      split at ensured
      · cases ensured
      · split at ensured
        · cases ensured
        · split at ensured
          · cases ensured
          · split at ensured
            · cases ensured
              rfl
            · cases ensured
              rfl
  | attach streamId registered consumer activationLsn => exact on_stream_ingress ok
  | advance streamId consumer move => exact on_stream_ingress ok
  | dropResult resultOid =>
      cases ok
      rfl
  | collect streamId chunkLimit rowLimit byteLimit => exact on_stream_ingress ok

theorem step_ingress_ok [DecidableEq Payload] {call : IngressCall Payload}
    (ok : step codec rowCodec db (.ingress call) = .ok after) :
    ingressStep codec db.ingress call = .ok after.ingress ∧ after.streams = db.streams := by
  simp only [step] at ok
  cases taken : ingressStep codec db.ingress call with
  | error fault =>
      rw [taken] at ok
      cases ok
  | ok ingress =>
      rw [taken] at ok
      cases ok
      exact ⟨rfl, rfl⟩

theorem accounts_step [DecidableEq Payload] {call : Call Payload} (accounts : Accounts codec db.ingress)
    (ok : step codec rowCodec db call = .ok after) :
    Accounts codec after.ingress := by
  cases call with
  | ingress call =>
      exact accounts_ingress_step accounts call (step_ingress_ok ok).1
  | publish slotGeneration =>
      obtain ⟨publication, published⟩ := map_fst_ok ok
      exact accounts_publish accounts published
  | stream call =>
      rw [stream_step_ingress ok]
      exact accounts

end

theorem accounts_reachable [DecidableEq Payload] (codec : PayloadCodec Payload) (rowCodec : RowCodec Payload Row)
    (db : SourceCatalog Payload Row)
    (reached : Reachable (step codec rowCodec) (fun start => start = emptyCatalog) db) : Accounts codec db.ingress := by
  refine reachable_invariant (fun state => Accounts codec state.ingress) ?_ ?_ db reached
  · rintro start rfl
    exact accounts_empty codec
  · intro state call after accounts taken
    exact accounts_step accounts taken

-- After any calls, failed ones included, every counter is the fact it counts,
-- and a further failing call changes nothing.
theorem ingress_accounting [DecidableEq Payload] (codec : PayloadCodec Payload) (rowCodec : RowCodec Payload Row)
    (calls : List (Call Payload)) :
    Accounts codec (afterCalls codec rowCodec calls).ingress ∧
      ∀ call fault, step codec rowCodec (afterCalls codec rowCodec calls) call = .error fault →
        afterCalls codec rowCodec (calls ++ [call]) = afterCalls codec rowCodec calls := by
  constructor
  · exact accounts_reachable codec rowCodec _ (reachable_attempts _ calls (.start _ rfl))
  · intro call fault failed
    rw [afterCalls, attempts, List.foldl_append]
    exact attempt_failed _ call fault failed

def publishedRun : List (Call Nat) :=
  [firstGeneration, .ingress (.claim ⟨1, 5, 10⟩),
    .ingress (.admitted anySource 1 [insertion 11 5 100 3, insertion 12 5 200 4]),
    .ingress (.commit 1 20 21), .publish 1]

theorem ingress_accounting_published :
    Accounts numberPayload (afterCalls numberPayload numberRow publishedRun).ingress ∧
      afterCalls numberPayload numberRow (publishedRun ++ [.ingress (.commit 1 22 23)]) =
        afterCalls numberPayload numberRow publishedRun :=
  ⟨(ingress_accounting numberPayload numberRow publishedRun).1,
    (ingress_accounting numberPayload numberRow publishedRun).2 (.ingress (.commit 1 22 23))
      (.raised "XX001" "ingress commit identity conflict for transaction 1") rfl⟩

end Shiba.Publication
