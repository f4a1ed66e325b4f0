import Shiba.Ingress.Accounting

set_option autoImplicit false

namespace Shiba.Ingress

open SerialTable

variable {Payload : Type}

structure FeedbackFacts where
  confirmedLsn : Option Lsn
  persistedLsn : Option Lsn
  replaySafeLsn : Option Lsn
  advanced : Bool
deriving DecidableEq, Repr

def confirmThrough (lsn : Lsn) (replay : ReplayState) : ReplayState := { replay with confirmedLsn := some lsn }

-- `confirmed IS NULL OR lsn > confirmed`.
def beyond (confirmed : Option Lsn) (lsn : Lsn) : Bool := !reachedBy confirmed lsn

def feedbackFault (confirmedLsn : Lsn) (persistedLsn : Option Lsn) (slotGeneration : Nat) : Fault :=
  let persisted := (persistedLsn.map formatLsn).getD "NULL"
  .raised "22023" (s!"feedback LSN {formatLsn confirmedLsn} exceeds persisted ingress LSN {persisted} "
    ++ s!"for generation {slotGeneration}")

def recordIngressFeedback (db : IngressCatalog Payload) (slotGeneration : Nat) (confirmedLsn : Lsn) :
    Except Fault (IngressCatalog Payload × FeedbackFacts) :=
  match db.activeReplay slotGeneration with
  | none => .error noTransaction
  | some replay =>
      if reachedBy replay.persistedLsn confirmedLsn then
        if beyond replay.confirmedLsn confirmedLsn then
          .ok (db.updateReplay slotGeneration (confirmThrough confirmedLsn) (fun _ => rfl),
            ⟨some confirmedLsn, replay.persistedLsn, replay.replaySafeLsn, true⟩)
        else .ok (db, ⟨replay.confirmedLsn, replay.persistedLsn, replay.replaySafeLsn, false⟩)
      else
        .error (feedbackFault confirmedLsn replay.persistedLsn slotGeneration)

-- The slot is somewhere it cannot have got by acknowledging persisted work.
def unprovenSlot (replay : ReplayState) (actual : Lsn) : Bool :=
  decide (actual < replay.slotBaselineLsn)
    || (match replay.persistedLsn with
        | none => decide (actual ≠ replay.slotBaselineLsn)
        | some persisted => decide (persisted < actual))

def proveSafe (actual : Lsn) (replay : ReplayState) : ReplayState :=
  { replay with
    confirmedLsn := some (greatestLsn replay.confirmedLsn actual)
    replaySafeLsn := some (greatestLsn replay.replaySafeLsn actual) }

def slotMismatchFault (replay : ReplayState) : Fault :=
  .raised "55000" s!"logical slot {replay.slotName} cannot prove replay safety for generation {replay.slotGeneration}"

def reconcileIngressReplaySafe (db : IngressCatalog Payload) (slot : Option LogicalSlot) (slotGeneration : Nat) :
    Except Fault (IngressCatalog Payload × Option Lsn) :=
  match db.activeReplay slotGeneration with
  | none => .error noTransaction
  | some replay =>
      match (slot.filter fun found => found.ownDatabase && found.pgoutput).bind LogicalSlot.confirmedFlushLsn with
      | none => .error (slotMismatchFault replay)
      | some actual =>
          if unprovenSlot replay actual then .error (slotMismatchFault replay)
          else if replay.persistedLsn = none then .ok (db, none)
          else
            .ok (db.updateReplay slotGeneration (proveSafe actual) (fun _ => rfl),
              some (greatestLsn replay.replaySafeLsn actual))

-- ORDER BY commit_lsn, NULLS LAST.
def commitOrder (a b : IngressTransaction Payload) : Bool :=
  match a.commitLsn, b.commitLsn with
  | some left, some right => decide (left ≤ right)
  | none, some _ => false
  | _, none => true

def reachedByOption (current lsn : Option Lsn) : Bool := lsn.any (reachedBy current)

-- `due` stands for the retention interval and for SKIP LOCKED.
def collectable (db : IngressCatalog Payload) (due : Nat → Bool) (txn : IngressTransaction Payload) : Bool :=
  decide (txn.status ≠ .opened) && due txn.ingressTxnId && decide (txn.pendingPublications = 0)
    && (db.replayState.find? txn.slotGeneration).any fun replay =>
      reachedByOption replay.replaySafeLsn txn.endLsn && reachedByOption replay.publishedLsn txn.finalLsn

def garbage (db : IngressCatalog Payload) (due : Nat → Bool) (maxTransactions : Nat) : List (IngressTransaction Payload) :=
  ((db.transactions.rows.filter (collectable db due)).insertionSort (commitOrder · ·)).take maxTransactions

def isGarbage (dead : List (IngressTransaction Payload)) (txn : IngressTransaction Payload) : Bool :=
  dead.any fun other => decide (other.ingressTxnId = txn.ingressTxnId)

def gcChangeLog (db : IngressCatalog Payload) (due : Nat → Bool) (maxTransactions : Nat) :
    Except Fault (IngressCatalog Payload × Nat) :=
  if maxTransactions < 1 then .error (.raised "22023" "max_transactions must be at least 1")
  else
    let dead := garbage db due maxTransactions
    .ok ({ db with transactions := db.transactions.deleteWhere (isGarbage dead) }, dead.length)

section

variable (db : IngressCatalog Payload) (due : Nat → Bool) (maxTransactions : Nat)

theorem garbage_mem (txn : IngressTransaction Payload) (member : txn ∈ garbage db due maxTransactions) :
    txn ∈ db.transactions.rows ∧ collectable db due txn = true := by
  have sorted := List.mem_of_mem_take member
  rw [List.mem_insertionSort] at sorted
  exact List.mem_filter.mp sorted

theorem garbage_apart :
    ((garbage db due maxTransactions).map IngressTransaction.ingressTxnId).Nodup := by
  have sorted := ((List.perm_insertionSort (commitOrder · ·) (db.transactions.rows.filter (collectable db due))).map
    IngressTransaction.ingressTxnId).nodup_iff
  have all : ((db.transactions.rows.filter (collectable db due)).map IngressTransaction.ingressTxnId).Nodup :=
    db.transactions.nodup.sublist (List.filter_sublist.map IngressTransaction.ingressTxnId)
  exact (sorted.mpr all).sublist ((List.take_sublist _ _).map IngressTransaction.ingressTxnId)

end

variable {after db : IngressCatalog Payload} {due : Nat → Bool}

theorem collectable_iff {txn : IngressTransaction Payload} (good : collectable db due txn = true) :
    txn.status ≠ .opened ∧ txn.pendingPublications = 0 ∧
      ∃ replay, db.replayState.find? txn.slotGeneration = some replay ∧
        reachedByOption replay.replaySafeLsn txn.endLsn = true ∧
        reachedByOption replay.publishedLsn txn.finalLsn = true := by
  simp only [collectable, Bool.and_eq_true, decide_eq_true_eq, Option.any_eq_true] at good
  obtain ⟨⟨⟨terminal, _⟩, none_⟩, replay, found, safe, published⟩ := good
  exact ⟨terminal, none_, replay, found, safe, published⟩

theorem gc_cases (db after : IngressCatalog Payload) (due : Nat → Bool) (maxTransactions count : Nat)
    (ok : gcChangeLog db due maxTransactions = .ok (after, count)) :
    after.replayState = db.replayState ∧ after.transactions.next = db.transactions.next ∧
      ∀ txn, txn ∈ after.transactions.rows ↔ txn ∈ db.transactions.rows ∧ txn ∉ garbage db due maxTransactions := by
  unfold gcChangeLog at ok
  split at ok
  · cases ok
  · cases ok
    refine ⟨rfl, rfl, ?_⟩
    intro txn
    rw [Table.mem_delete_where]
    refine and_congr_right fun member => ?_
    rw [isGarbage, List.any_eq_false]
    constructor
    · intro kept dead
      exact kept txn dead (decide_eq_true rfl)
    · intro kept other dead same
      have isTxn := db.transactions.row_unique other txn (garbage_mem db due _ other dead).1 member (of_decide_eq_true same)
      exact kept (isTxn ▸ dead)

theorem accounts_gc {codec : PayloadCodec Payload} (accounts : Accounts codec db) {maxTransactions count : Nat}
    (ok : gcChangeLog db due maxTransactions = .ok (after, count)) :
    Accounts codec after := by
  unfold gcChangeLog at ok
  split at ok
  · cases ok
  · cases ok
    refine ⟨?_, ?_, ?_⟩
    · intro txn member
      exact accounts.headers txn ((Table.mem_delete_where _ _ _).mp member).1
    · intro txn member
      exact accounts.owned txn ((Table.mem_delete_where _ _ _).mp member).1
    · intro replay member
      rw [accounts.balanced replay member]
      refine (Table.total_delete_where db.transactions _ _ ?_).symm
      intro txn inTable dead
      obtain ⟨other, isDead, same⟩ := List.any_eq_true.mp dead
      obtain ⟨otherMember, good⟩ := garbage_mem db due _ other isDead
      rw [← db.transactions.row_unique other txn otherMember inTable (of_decide_eq_true same)]
      exact open_bytes_sealed _ _ (collectable_iff good).1

theorem record_feedback_cases {slotGeneration : Nat} {lsn : Lsn} {facts : FeedbackFacts}
    (ok : recordIngressFeedback db slotGeneration lsn = .ok (after, facts)) :
    after = db ∨ after = db.updateReplay slotGeneration (confirmThrough lsn) (fun _ => rfl) := by
  unfold recordIngressFeedback at ok
  split at ok
  · cases ok
  · split at ok
    · split at ok
      · cases ok
        exact .inr rfl
      · cases ok
        exact .inl rfl
    · cases ok

theorem reconcile_safe_cases {slot : Option LogicalSlot} {slotGeneration : Nat} {safe : Option Lsn}
    (ok : reconcileIngressReplaySafe db slot slotGeneration = .ok (after, safe)) :
    after = db ∨ ∃ actual, after = db.updateReplay slotGeneration (proveSafe actual) (fun _ => rfl) := by
  unfold reconcileIngressReplaySafe at ok
  split at ok
  · cases ok
  · split at ok
    · cases ok
    · split at ok
      · cases ok
      · split at ok
        · cases ok
          exact .inl rfl
        · cases ok
          exact .inr ⟨_, rfl⟩

end Shiba.Ingress
