import Shiba.Ingress.Replay
import Shiba.Publication.Cursor

set_option autoImplicit false

namespace Shiba.Publication

open SerialTable Shiba.Ingress Shiba.Stream

variable {Payload Row : Type}

-- Nothing of the header waits for a publication: it committed and its tasks are
-- finished, or it aborted.
structure Drained (txn : IngressTransaction Payload) : Prop where
  terminal : txn.status ≠ .opened
  counted : txn.pendingPublications = 0
  finished : txn.status = .committed → ∀ task ∈ txn.publications, isPending task = false

def restore (db : IngressCatalog Payload) (txn : IngressTransaction Payload) : IngressCatalog Payload :=
  { db with transactions := db.transactions.putBack txn }

-- The catalog as it would be had the header not been deleted.
def restoreHeader (db : SourceCatalog Payload Row) (txn : IngressTransaction Payload) : SourceCatalog Payload Row :=
  ⟨restore db.ingress txn, db.streams⟩

section Restore

variable {txn : IngressTransaction Payload} (drained : Drained txn)

theorem restore_rows (db : IngressCatalog Payload) (fits : db.transactions.Fits txn) :
    (restore db txn).transactions.rows = db.transactions.rows ++ [txn] :=
  (Table.put_back_rows fits).1

include drained

theorem drained_tasks (slotGeneration : Nat) (committed : committedIn slotGeneration txn = true) :
    txn.publications.filter isPending = [] := by
  simp only [committedIn, decide_eq_true_eq] at committed
  apply List.filter_eq_nil_iff.mpr
  intro task member
  simp [drained.finished committed.2 task member]

variable (db : IngressCatalog Payload)

theorem pending_tasks_restore (fits : db.transactions.Fits txn) (slotGeneration : Nat) :
    pendingTasks (restore db txn) slotGeneration = pendingTasks db slotGeneration := by
  unfold pendingTasks
  rw [restore_rows db fits, List.filter_append, List.flatMap_append]
  by_cases committed : committedIn slotGeneration txn
  · simp [committed, drained_tasks drained slotGeneration committed]
  · simp [committed]

theorem has_pending_restore {db : IngressCatalog Payload} (fits : db.transactions.Fits txn) (slotGeneration : Nat) :
    hasPending (restore db txn) slotGeneration = hasPending db slotGeneration := by
  unfold hasPending
  rw [restore_rows db fits, List.any_append]
  simp [drained.counted]

theorem choose_candidate_restore (db : SourceCatalog Payload Row) (fits : db.ingress.transactions.Fits txn)
    (slotGeneration : Nat) : chooseCandidate (restoreHeader db txn) slotGeneration = chooseCandidate db slotGeneration := by
  unfold chooseCandidate
  rw [restoreHeader, pending_tasks_restore drained db.ingress fits]
  rfl

omit drained in
theorem find_restore (fits : db.transactions.Fits txn) (ingressTxnId : Nat)
    (present : ∃ other ∈ db.transactions.rows, other.ingressTxnId = ingressTxnId) :
    (restore db txn).findTransaction ingressTxnId = db.findTransaction ingressTxnId := by
  apply Table.find_put_back db.transactions txn fits
  rintro rfl
  obtain ⟨other, member, same⟩ := present
  exact fits.2 (List.mem_map.mpr ⟨other, member, same⟩)

omit drained in
theorem lock_task_restore {db : IngressCatalog Payload} (fits : db.transactions.Fits txn) {slotGeneration : Nat}
    {candidate : PendingTask Payload} (waits : candidate ∈ pendingTasks db slotGeneration) :
    lockTask (restore db txn) slotGeneration candidate = lockTask db slotGeneration candidate := by
  have present := (pending_task_mem db slotGeneration candidate).mp waits
  unfold lockTask
  rw [find_restore db fits _ ⟨candidate.header, present.1, rfl⟩]

omit drained in
theorem advance_task_restore (fits : db.transactions.Fits txn) (other : IngressTransaction Payload)
    (member : other ∈ db.transactions.rows) (task : Task) (outcome : SourcePublicationOutcome) (next : Option Nat) :
    advanceTask (restore db txn) other task outcome next =
      (advanceTask db other task outcome next).map fun after => restore after txn := by
  have apart : txn.ingressTxnId ≠ other.ingressTxnId := by
    intro same
    exact fits.2 (List.mem_map.mpr ⟨other, member, same.symm⟩)
  have moved : (restore db txn).updateTransaction other.ingressTxnId (advanceHeader task (finishes outcome) next)
      (fun _ => rfl) =
        restore (db.updateTransaction other.ingressTxnId (advanceHeader task (finishes outcome) next) (fun _ => rfl)) txn := by
    have tables := Table.update_where_put_back db.transactions (fun row => decide (row.ingressTxnId = other.ingressTxnId))
      (advanceHeader task (finishes outcome) next) (fun _ => rfl) txn fits (decide_eq_false apart)
    exact congrArg (fun table => (⟨db.replayState, table⟩ : IngressCatalog Payload)) tables
  unfold advanceTask
  rw [moved]
  split
  · rfl
  · split
    · rfl
    · split <;> rfl

-- Had the header stayed, the publication would do the same.
theorem publish_restore (rowCodec : RowCodec Payload Row) (db : SourceCatalog Payload Row)
    (fits : db.ingress.transactions.Fits txn) (slotGeneration : Nat) :
    publishSourceBatch rowCodec (restoreHeader db txn) slotGeneration =
      (publishSourceBatch rowCodec db slotGeneration).map fun result => (restoreHeader result.1 txn, result.2) := by
  have active : (restoreHeader db txn).ingress.activeReplay slotGeneration = db.ingress.activeReplay slotGeneration := rfl
  have publishes (replay : ReplayState) (other : IngressTransaction Payload) (task : Task) :
      publishTask rowCodec (restoreHeader db txn) replay other task = publishTask rowCodec db replay other task := rfl
  unfold publishSourceBatch
  rw [active, choose_candidate_restore drained db fits]
  by_cases zero : slotGeneration = 0
  · rw [if_pos zero, if_pos zero]
    rfl
  · rw [if_neg zero, if_neg zero]
    cases db.ingress.activeReplay slotGeneration with
    | none => rfl
    | some replay =>
        cases chosen : chooseCandidate db slotGeneration with
        | none =>
            simp only [Except.map]
            rw [show hasPending (restoreHeader db txn).ingress slotGeneration = hasPending db.ingress slotGeneration from
              has_pending_restore drained fits slotGeneration]
        | some candidate =>
            have waits := (List.mem_filter.mp (List.argmin_mem chosen)).1
            have locks : lockTask (restoreHeader db txn).ingress slotGeneration candidate =
                lockTask db.ingress slotGeneration candidate := lock_task_restore fits waits
            simp only [locks]
            cases locked : lockTask db.ingress slotGeneration candidate with
            | error fault => rfl
            | ok pair =>
                obtain ⟨other, task⟩ := pair
                simp only [publishes]
                cases publishTask rowCodec db replay other task with
                | error fault => rfl
                | ok result =>
                    obtain ⟨streams, outcome, chunkSeq, next⟩ := result
                    have member := (db.ingress.transactions.mem_of_find _ _ (lock_task_cases locked).1).1
                    have advances : advanceTask (restoreHeader db txn).ingress other task outcome next =
                        (advanceTask db.ingress other task outcome next).map fun after => restore after txn :=
                      advance_task_restore db.ingress fits other member task outcome next
                    by_cases moving : moves outcome = true
                    · simp only [if_pos moving, advances]
                      cases advanced : advanceTask db.ingress other task outcome next with
                      | error fault => rfl
                      | ok ingress =>
                          have same := (advance_task_cases advanced).2.2.2
                          have still : ingress.transactions.Fits txn := by
                            rw [same]
                            exact (Table.fits_update_where _ _ (advanceHeader task (finishes outcome) next) (fun _ => rfl) _).mpr fits
                          simp only [Except.map]
                          rw [has_pending_restore drained still]
                          rfl
                    · simp only [if_neg moving, Except.map]
                      rw [show hasPending (restoreHeader db txn).ingress slotGeneration =
                        hasPending db.ingress slotGeneration from has_pending_restore drained fits slotGeneration]
                      rfl

omit drained in
theorem next_sealed_restore (fits : db.transactions.Fits txn) (slotGeneration : Nat) (current : Option Lsn)
    (behind : isAhead slotGeneration current txn = false) :
    nextSealed (restore db txn) slotGeneration current = nextSealed db slotGeneration current := by
  unfold nextSealed
  rw [restore_rows db fits, List.filter_append, List.filter_cons_of_neg (by simp [behind]), List.filter_nil, List.append_nil]

omit drained in
-- Had a header the frontier has passed stayed, the frontier would move the same.
theorem advance_restore (fits : db.transactions.Fits txn) (slotGeneration : Nat)
    (behind : ∀ replay ∈ db.replayState.rows, isAhead replay.slotGeneration replay.publishedLsn txn = false) :
    advanceIngressPublicationFrontier (restore db txn) slotGeneration =
      (advanceIngressPublicationFrontier db slotGeneration).map fun result => (restore result.1 txn, result.2) := by
  have active : (restore db txn).activeReplay slotGeneration = db.activeReplay slotGeneration := rfl
  unfold advanceIngressPublicationFrontier
  rw [active]
  cases found : db.activeReplay slotGeneration with
  | none => rfl
  | some replay =>
      have member := (db.active_replay_some _ _ found).1
      have target : advanceTarget (restore db txn) replay = advanceTarget db replay := by
        unfold advanceTarget
        rw [next_sealed_restore db fits _ _ (behind replay member)]
      simp only [target]
      cases advanceTarget db replay with
      | none => rfl
      | some lsn => rfl

end Restore

def restoreAll (db : IngressCatalog Payload) (txns : List (IngressTransaction Payload)) : IngressCatalog Payload :=
  txns.foldl restore db

def restoreHeaders (db : SourceCatalog Payload Row) (txns : List (IngressTransaction Payload)) : SourceCatalog Payload Row :=
  ⟨restoreAll db.ingress txns, db.streams⟩

section

variable (db : IngressCatalog Payload) (txn other : IngressTransaction Payload)

theorem fits_restored (fits : db.transactions.Fits txn) (otherFits : db.transactions.Fits other)
    (apart : txn.ingressTxnId ≠ other.ingressTxnId) :
    (restore db txn).transactions.Fits other := by
  have put := Table.put_back_rows fits
  refine ⟨?_, ?_⟩
  · rw [restore, put.2]
    exact otherFits.1
  · rw [restore, put.1, List.map_append, List.mem_append, not_or]
    refine ⟨otherFits.2, ?_⟩
    simpa using Ne.symm apart

-- The headers of a deletion all fit beside each other.
theorem rest_fits (rest : List (IngressTransaction Payload))
    (apart : ((txn :: rest).map IngressTransaction.ingressTxnId).Nodup)
    (fits : ∀ other ∈ txn :: rest, db.transactions.Fits other) (other : IngressTransaction Payload) (member : other ∈ rest) :
    (restore db txn).transactions.Fits other := by
  apply fits_restored db txn other (fits txn List.mem_cons_self) (fits other (List.mem_cons_of_mem _ member))
  intro same
  exact (List.nodup_cons.mp apart).1 (List.mem_map.mpr ⟨other, member, same.symm⟩)

end

variable (rowCodec : RowCodec Payload Row) (slotGeneration : Nat) (txns : List (IngressTransaction Payload))

theorem publish_restore_all (drained : ∀ txn ∈ txns, Drained txn) (apart : (txns.map IngressTransaction.ingressTxnId).Nodup)
    (db : SourceCatalog Payload Row) (fits : ∀ txn ∈ txns, db.ingress.transactions.Fits txn) :
    publishSourceBatch rowCodec (restoreHeaders db txns) slotGeneration =
      (publishSourceBatch rowCodec db slotGeneration).map fun result => (restoreHeaders result.1 txns, result.2) := by
  induction txns generalizing db with
  | nil =>
      change publishSourceBatch rowCodec db slotGeneration = _
      cases publishSourceBatch rowCodec db slotGeneration with
      | error fault => rfl
      | ok result => rfl
  | cons txn rest ih =>
      have first := publish_restore (drained txn List.mem_cons_self) rowCodec db (fits txn List.mem_cons_self) slotGeneration
      have later := ih (fun other member => drained other (List.mem_cons_of_mem _ member)) (List.nodup_cons.mp apart).2
        (restoreHeader db txn) (rest_fits db.ingress txn rest apart fits)
      change publishSourceBatch rowCodec (restoreHeaders (restoreHeader db txn) rest) slotGeneration = _
      rw [later, first]
      cases publishSourceBatch rowCodec db slotGeneration with
      | error fault => rfl
      | ok result => rfl

theorem advance_restore_all (apart : (txns.map IngressTransaction.ingressTxnId).Nodup) (db : IngressCatalog Payload)
    (fits : ∀ txn ∈ txns, db.transactions.Fits txn)
    (behind : ∀ txn ∈ txns, ∀ replay ∈ db.replayState.rows, isAhead replay.slotGeneration replay.publishedLsn txn = false) :
    advanceIngressPublicationFrontier (restoreAll db txns) slotGeneration =
      (advanceIngressPublicationFrontier db slotGeneration).map fun result => (restoreAll result.1 txns, result.2) := by
  induction txns generalizing db with
  | nil =>
      change advanceIngressPublicationFrontier db slotGeneration = _
      cases advanceIngressPublicationFrontier db slotGeneration with
      | error fault => rfl
      | ok result => rfl
  | cons txn rest ih =>
      have first := advance_restore db (fits txn List.mem_cons_self) slotGeneration (behind txn List.mem_cons_self)
      have later := ih (List.nodup_cons.mp apart).2 (restore db txn) (rest_fits db txn rest apart fits)
        fun other member => behind other (List.mem_cons_of_mem _ member)
      change advanceIngressPublicationFrontier (restoreAll (restore db txn) rest) slotGeneration = _
      rw [later, first]
      cases advanceIngressPublicationFrontier db slotGeneration with
      | error fault => rfl
      | ok result => rfl

end Shiba.Publication
