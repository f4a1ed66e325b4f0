import Shiba.Publication.Accounting

set_option autoImplicit false

namespace Shiba.Publication

open SerialTable Transition Shiba.Ingress Shiba.Stream

variable {Payload Row : Type}

-- Every committed header the frontier has reached is fully published.
def FrontierSafe (db : IngressCatalog Payload) : Prop :=
  ∀ replay ∈ db.replayState.rows, ∀ txn ∈ db.transactions.rows, ∀ final,
    txn.slotGeneration = replay.slotGeneration → txn.status = .committed → txn.finalLsn = some final →
    reachedBy replay.publishedLsn final = true → txn.pendingPublications = 0

-- The first sealed header above the frontier, in (final_lsn, ingress_txn_id) order.
def FirstSealed (db : IngressCatalog Payload) (replay : ReplayState) (txn : IngressTransaction Payload) : Prop :=
  txn ∈ db.transactions.rows ∧ isAhead replay.slotGeneration replay.publishedLsn txn = true ∧
    ∀ other ∈ db.transactions.rows, isAhead replay.slotGeneration replay.publishedLsn other = true →
      frontierKey txn ≤ frontierKey other

-- Two calls can put unpublished work behind the frontier: a commit at or below
-- it, and an advance to a final LSN that a header with pending tasks shares.
def FrontierClear (db : IngressCatalog Payload) : IngressCall Payload → Prop
  | .commit ingressTxnId commitLsn _ =>
      ∀ txn replay, db.findTransaction ingressTxnId = some txn → txn.status = .opened →
        db.activeReplay txn.slotGeneration = some replay → txn.pendingPublications ≠ 0 →
        reachedBy replay.publishedLsn commitLsn = false
  | .advanceFrontier slotGeneration =>
      ∀ replay first, db.activeReplay slotGeneration = some replay → FirstSealed db replay first →
        first.pendingPublications = 0 → (∀ final, first.finalLsn = some final → reachedBy replay.persistedLsn final) →
        ∀ txn ∈ db.transactions.rows, txn.slotGeneration = slotGeneration → txn.status = .committed →
          txn.finalLsn = first.finalLsn → txn.pendingPublications = 0
  | _ => True

def CallClear (db : SourceCatalog Payload Row) : Call Payload → Prop
  | .ingress call => FrontierClear db.ingress call
  | _ => True

-- A change that publishes nothing new and commits nothing new.
def FrontierKept (before after : IngressCatalog Payload) : Prop :=
  (∀ replay ∈ after.replayState.rows, replay.publishedLsn = none ∨
    ∃ old ∈ before.replayState.rows, old.slotGeneration = replay.slotGeneration ∧ old.publishedLsn = replay.publishedLsn) ∧
  ∀ txn ∈ after.transactions.rows, txn.status = .committed →
    ∃ old ∈ before.transactions.rows, old.status = .committed ∧ old.slotGeneration = txn.slotGeneration ∧
      old.finalLsn = txn.finalLsn ∧ txn.pendingPublications ≤ old.pendingPublications

def PublishedLe (before after : IngressCatalog Payload) : Prop :=
  ∀ replay ∈ before.replayState.rows, ∃ later ∈ after.replayState.rows,
    later.slotGeneration = replay.slotGeneration ∧ lsnLe replay.publishedLsn later.publishedLsn

section

variable (a b c db : IngressCatalog Payload) (server : ServerFacts) (slotName : String)

theorem published_le_refl : PublishedLe db db :=
  fun replay member => ⟨replay, member, rfl, lsn_le_refl _⟩

theorem published_le_trans (ab : PublishedLe a b) (bc : PublishedLe b c) :
    PublishedLe a c := by
  intro replay member
  obtain ⟨middle, middleMember, sameMiddle, low⟩ := ab replay member
  obtain ⟨last, lastMember, sameLast, high⟩ := bc middle middleMember
  exact ⟨last, lastMember, sameLast.trans sameMiddle, lsn_le_trans _ _ _ low high⟩

theorem safe_of_kept (before after : IngressCatalog Payload) (kept : FrontierKept before after)
    (safe : FrontierSafe before) : FrontierSafe after := by
  intro replay replayMember txn txnMember final generation committed sealed reached
  obtain ⟨old, oldMember, oldCommitted, oldGeneration, oldFinal, fewer⟩ := kept.2 txn txnMember committed
  rcases kept.1 replay replayMember with unset | ⟨row, rowMember, sameGeneration, samePublished⟩
  · simp [unset] at reached
  · have empty := safe row rowMember old oldMember final (oldGeneration.trans (generation.trans sameGeneration.symm))
      oldCommitted (oldFinal.trans sealed) (samePublished ▸ reached)
    omega

theorem kept_refl : FrontierKept db db :=
  ⟨fun replay member => .inr ⟨replay, member, rfl, rfl⟩, fun txn member committed =>
    ⟨txn, member, committed, rfl, rfl, Nat.le_refl _⟩⟩

theorem kept_trans (ab : FrontierKept a b) (bc : FrontierKept b c) :
    FrontierKept a c := by
  constructor
  · intro replay member
    rcases bc.1 replay member with unset | ⟨middle, middleMember, sameMiddle, publishedMiddle⟩
    · exact .inl unset
    · rcases ab.1 middle middleMember with unset | ⟨first, firstMember, sameFirst, publishedFirst⟩
      · exact .inl (publishedMiddle.symm.trans unset)
      · exact .inr ⟨first, firstMember, sameFirst.trans sameMiddle, publishedFirst.trans publishedMiddle⟩
  · intro txn member committed
    obtain ⟨middle, middleMember, middleCommitted, sameMiddle, finalMiddle, fewMiddle⟩ := bc.2 txn member committed
    obtain ⟨first, firstMember, firstCommitted, sameFirst, finalFirst, fewFirst⟩ := ab.2 middle middleMember middleCommitted
    exact ⟨first, firstMember, firstCommitted, sameFirst.trans sameMiddle, finalFirst.trans finalMiddle,
      Nat.le_trans fewMiddle fewFirst⟩

theorem kept_update_replay (slotGeneration : Nat) (change : ReplayState → ReplayState)
    (keeps : ∀ replay, (change replay).slotGeneration = replay.slotGeneration)
    (same : ∀ replay, (change replay).publishedLsn = replay.publishedLsn) :
    FrontierKept db (db.updateReplay slotGeneration change keeps) ∧
      PublishedLe db (db.updateReplay slotGeneration change keeps) := by
  refine ⟨⟨?_, (kept_refl db).2⟩, ?_⟩
  · intro replay member
    rcases (db.mem_update_replay _ _ keeps _).mp member with ⟨old, _⟩ | ⟨before, old, _, rfl⟩
    · exact .inr ⟨replay, old, rfl, rfl⟩
    · exact .inr ⟨before, old, (keeps before).symm, (same before).symm⟩
  · intro replay member
    by_cases hit : replay.slotGeneration = slotGeneration
    · refine ⟨change replay, (db.mem_update_replay _ _ keeps _).mpr (.inr ⟨replay, member, hit, rfl⟩), keeps replay, ?_⟩
      rw [same]
      exact lsn_le_refl _
    · exact ⟨replay, (db.mem_update_replay _ _ keeps _).mpr (.inl ⟨member, hit⟩), rfl, lsn_le_refl _⟩

-- A header change keeps the frontier unless it commits the header.
theorem kept_update_transaction (ingressTxnId : Nat) (change : IngressTransaction Payload → IngressTransaction Payload)
    (keeps : ∀ txn, (change txn).ingressTxnId = txn.ingressTxnId) (txn : IngressTransaction Payload)
    (found : db.findTransaction ingressTxnId = some txn) (kept : (change txn).status = .committed → txn.status = .committed ∧
      (change txn).slotGeneration = txn.slotGeneration ∧ (change txn).finalLsn = txn.finalLsn ∧
      (change txn).pendingPublications ≤ txn.pendingPublications) :
    FrontierKept db (db.updateTransaction ingressTxnId change keeps) := by
  refine ⟨(kept_refl db).1, ?_⟩
  intro row member committed
  rcases (db.mem_update_transaction _ _ keeps txn row found).mp member with ⟨old, _⟩ | rfl
  · exact ⟨row, old, committed, rfl, rfl, Nat.le_refl _⟩
  · obtain ⟨before, generation, final, fewer⟩ := kept committed
    exact ⟨txn, (db.transactions.mem_of_find _ _ found).1, before, generation.symm, final.symm, fewer⟩

theorem kept_open_generation (baseline : Lsn) :
    FrontierKept db (openGeneration db server slotName baseline) ∧
      PublishedLe db (openGeneration db server slotName baseline) := by
  refine ⟨⟨?_, (kept_refl db).2⟩, ?_⟩
  · intro replay member
    rcases (mem_open_generation db server slotName baseline replay).mp member with old | rfl
    · exact .inr ⟨replay, old, rfl, rfl⟩
    · exact .inl rfl
  · intro replay member
    exact ⟨replay, (mem_open_generation db server slotName baseline replay).mpr (.inl member), rfl, lsn_le_refl _⟩

theorem kept_retire_generation :
    FrontierKept db (retireIngressGeneration db slotName) ∧ PublishedLe db (retireIngressGeneration db slotName) := by
  refine ⟨⟨?_, (kept_refl db).2⟩, ?_⟩
  · intro replay member
    obtain ⟨before, old, rfl⟩ := (Table.mem_update_where db.replayState _ retireReplay (fun _ => rfl) replay).mp member
    split <;> exact .inr ⟨before, old, rfl, rfl⟩
  · intro replay member
    refine ⟨_, (Table.mem_update_where db.replayState _ retireReplay (fun _ => rfl) _).mpr ⟨replay, member, rfl⟩, ?_⟩
    split <;> exact ⟨rfl, lsn_le_refl _⟩

theorem kept_abort_lost (slotGeneration : Nat) :
    FrontierKept db (abortLost db server slotGeneration) ∧ PublishedLe db (abortLost db server slotGeneration) := by
  refine ⟨⟨?_, ?_⟩, ?_⟩
  · intro replay member
    rcases (mem_abort_lost_replay db server slotGeneration replay).mp member with ⟨old, _⟩ | ⟨before, old, _, rfl⟩
    · exact .inr ⟨replay, old, rfl, rfl⟩
    · exact .inr ⟨before, old, rfl, rfl⟩
  · intro txn member committed
    obtain ⟨before, old, rfl⟩ := (mem_abort_lost db server slotGeneration txn).mp member
    by_cases lost : isOpenIn slotGeneration before = true
    · simp [lost, sealLost, sealAborted] at committed
    · rw [if_neg lost] at committed ⊢
      exact ⟨before, old, committed, rfl, rfl, Nat.le_refl _⟩
  · intro replay member
    by_cases hit : replay.slotGeneration = slotGeneration
    · exact ⟨restartEpoch server replay,
        (mem_abort_lost_replay db server slotGeneration _).mpr (.inr ⟨replay, member, hit, rfl⟩), rfl, lsn_le_refl _⟩
    · exact ⟨replay, (mem_abort_lost_replay db server slotGeneration _).mpr (.inl ⟨member, hit⟩), rfl, lsn_le_refl _⟩

theorem next_sealed_first {db : IngressCatalog Payload} {replay : ReplayState} {txn : IngressTransaction Payload}
    (next : nextSealed db replay.slotGeneration replay.publishedLsn = some txn) : FirstSealed db replay txn := by
  unfold nextSealed at next
  obtain ⟨member, ahead⟩ := List.mem_filter.mp (List.argmin_mem next)
  refine ⟨member, ahead, ?_⟩
  intro other otherMember otherAhead
  exact List.le_of_mem_argmin (List.mem_filter.mpr ⟨otherMember, otherAhead⟩) next

theorem first_sealed_next (replay : ReplayState) (txn : IngressTransaction Payload) (first : FirstSealed db replay txn) :
    nextSealed db replay.slotGeneration replay.publishedLsn = some txn := by
  obtain ⟨member, ahead, least⟩ := first
  cases next : nextSealed db replay.slotGeneration replay.publishedLsn with
  | none =>
      have empty := List.argmin_eq_none.mp next
      have present := List.mem_filter.mpr ⟨member, ahead⟩
      simp [empty] at present
  | some other =>
      obtain ⟨otherMember, otherAhead, otherLeast⟩ := next_sealed_first next
      have same : frontierKey other = frontierKey txn := le_antisymm (otherLeast txn member ahead) (least other otherMember otherAhead)
      have sameId : other.ingressTxnId = txn.ingressTxnId := (Prod.mk.inj (toLex.injective same)).2
      rw [db.transactions.row_unique other txn otherMember member sameId]

section

variable {target : Lsn} {slotGeneration : Nat} {replay : ReplayState} {db : IngressCatalog Payload}

theorem advance_target_some (advances : advanceTarget db replay = some target) :
    ∃ first, FirstSealed db replay first ∧ first.pendingPublications = 0 ∧ first.finalLsn = some target ∧
      reachedBy replay.persistedLsn target = true ∧ reachedBy replay.publishedLsn target = false := by
  unfold advanceTarget at advances
  split at advances
  · cases advances
  · rename_i first next
    split at advances
    · cases advances
    · rename_i ready
      obtain ⟨final, persisted⟩ := Option.filter_eq_some_iff.mp advances
      have sealed := next_sealed_first next
      refine ⟨first, sealed, not_not.mp (not_or.mp ready).2, final, persisted, ?_⟩
      have ahead := sealed.2.1
      simp only [isAhead, final, Bool.and_eq_true, Bool.not_eq_true'] at ahead
      exact ahead.2

theorem advance_target_first (codec : PayloadCodec Payload) (db : IngressCatalog Payload) (accounts : Accounts codec db)
    (replay : ReplayState) (first : IngressTransaction Payload) (sealed : FirstSealed db replay first)
    (done : first.pendingPublications = 0)
    (persisted : ∀ final, first.finalLsn = some final → reachedBy replay.persistedLsn final) :
    ∃ final, first.finalLsn = some final ∧ advanceTarget db replay = some final := by
  have next := first_sealed_next db replay first sealed
  obtain ⟨member, ahead, _⟩ := sealed
  cases final : first.finalLsn with
  | none => simp [isAhead, final] at ahead
  | some lsn =>
      have closed : first.status ≠ .opened := by
        intro opened
        have consistent := (accounts.headers first member).sealed
        simp only [SealedConsistently, opened, final] at consistent
        exact absurd consistent.1 (by simp)
      refine ⟨lsn, rfl, ?_⟩
      unfold advanceTarget
      rw [next]
      simp only [closed, done, final, false_or, ne_eq, not_true_eq_false, if_false]
      exact Option.filter_eq_some_iff.mpr ⟨rfl, persisted lsn final⟩

theorem published_le_publish (active : db.activeReplay slotGeneration = some replay)
    (ahead : reachedBy replay.publishedLsn target = false) :
    PublishedLe db (db.updateReplay slotGeneration (publishThrough target) (fun _ => rfl)) := by
  obtain ⟨replayMember, named, _⟩ := db.active_replay_some _ _ active
  intro row member
  by_cases hit : row.slotGeneration = slotGeneration
  · have isReplay : row = replay := db.replayState.row_unique row replay member replayMember (hit.trans named.symm)
    subst isReplay
    refine ⟨publishThrough target row,
      (db.mem_update_replay _ (publishThrough target) (fun _ => rfl) _).mpr (.inr ⟨row, member, hit, rfl⟩), rfl, ?_⟩
    intro lsn published
    refine ⟨target, rfl, ?_⟩
    rw [published, reached_by_some, decide_eq_false_iff_not] at ahead
    exact Nat.le_of_lt (Nat.lt_of_not_le ahead)
  · exact ⟨row, (db.mem_update_replay _ (publishThrough target) (fun _ => rfl) _).mpr (.inl ⟨member, hit⟩), rfl,
      lsn_le_refl _⟩

-- Publishing keeps every claimed fact about the frontier: pending counters
-- only fall, and no header or replay row is added.
theorem kept_publish {codec : RowCodec Payload Row} {db after : SourceCatalog Payload Row} {publication : SourcePublication}
    (ok : publishSourceBatch codec db slotGeneration = .ok (after, publication)) :
    FrontierKept db.ingress after.ingress ∧ PublishedLe db.ingress after.ingress := by
  obtain ⟨replay, _, ⟨_, rfl, _⟩ | ⟨candidate, txn, task, next, _, locked, _, _, advanced⟩⟩ := publish_source_batch_cases ok
  · exact ⟨kept_refl _, published_le_refl _⟩
  · split at advanced
    · obtain ⟨_, _, _, same⟩ := advance_task_cases advanced
      obtain ⟨found, committed, _, _⟩ := lock_task_cases locked
      have named := (db.ingress.transactions.mem_of_find _ _ found).2
      rw [← named] at found
      rw [same]
      refine ⟨kept_update_transaction db.ingress txn.ingressTxnId (advanceHeader task (finishes publication.outcome) next)
        (fun _ => rfl) txn found ?_, published_le_refl _⟩
      intro isCommitted
      refine ⟨isCommitted, rfl, rfl, ?_⟩
      simp only [advanceHeader]
      split <;> omega
    · rw [← Except.ok.inj advanced]
      exact ⟨kept_refl _, published_le_refl _⟩

end

theorem kept_admitted (txn : IngressTransaction Payload) (bytes : Nat) (allocation : Allocation)
    (inserted : List (ChangeRow Payload)) (found : db.findTransaction txn.ingressTxnId = some txn)
    (opened : txn.status = .opened) :
    FrontierKept db (admittedBatch db txn bytes allocation inserted) ∧
      PublishedLe db (admittedBatch db txn bytes allocation inserted) := by
  have header := kept_update_transaction db txn.ingressTxnId
    (admitRows allocation inserted (publicationTasks allocation inserted)) (fun _ => rfl) txn found
    (fun committed => by simp [admitRows, opened] at committed)
  have replay := kept_update_replay (db.updateTransaction txn.ingressTxnId
    (admitRows allocation inserted (publicationTasks allocation inserted)) (fun _ => rfl)) txn.slotGeneration
    (stagePayload bytes) (fun _ => rfl) (fun _ => rfl)
  exact ⟨kept_trans _ _ _ header replay.1, replay.2⟩

end

-- Every call but an effective commit or advance keeps the frontier facts.
theorem kept_ingress_step [DecidableEq Payload] {codec : PayloadCodec Payload} {db after : IngressCatalog Payload}
    {call : IngressCall Payload} (ok : ingressStep codec db call = .ok after) :
    (FrontierKept db after ∧ PublishedLe db after) ∨
      (∃ ingressTxnId commitLsn endLsn replay txn, call = .commit ingressTxnId commitLsn endLsn ∧
        lockTransaction db ingressTxnId = .ok (replay, txn) ∧ txn.status = .opened ∧
        after = (db.updateTransaction ingressTxnId (sealCommitted commitLsn endLsn) (fun _ => rfl)).updateReplay
          txn.slotGeneration (fun row => persistThrough endLsn (releasePayload txn.payloadBytes row)) (fun _ => rfl)) ∨
      ∃ slotGeneration replay target, call = .advanceFrontier slotGeneration ∧
        db.activeReplay slotGeneration = some replay ∧ advanceTarget db replay = some target ∧
        after = db.updateReplay slotGeneration (publishThrough target) (fun _ => rfl) := by
  cases call with
  | ensureGeneration server slot slotName forceNew =>
      obtain ⟨generation, made⟩ := map_fst_ok ok
      left
      rcases ensure_generation_cases made with
        rfl | ⟨baseline, fresh | ⟨old, fresh⟩⟩
      · exact ⟨kept_refl _, published_le_refl _⟩
      · rw [insert_generation_cases fresh]
        exact kept_open_generation db server slotName baseline
      · rw [insert_generation_cases fresh]
        have retired := kept_update_replay db old retireReplay (fun _ => rfl) (fun _ => rfl)
        have opened := kept_open_generation (db.updateReplay old retireReplay (fun _ => rfl)) server slotName baseline
        exact ⟨kept_trans _ _ _ retired.1 opened.1, published_le_trans _ _ _ retired.2 opened.2⟩
  | retireGeneration slotName =>
      cases ok
      exact .inl (kept_retire_generation db slotName)
  | claim identity =>
      obtain ⟨row, made⟩ := map_fst_ok ok
      left
      obtain ⟨replay, _, ⟨_, _, rfl, _⟩ | ⟨_, _, rfl, _⟩⟩ := claim_cases db after identity row made
      · exact ⟨kept_refl _, published_le_refl _⟩
      · refine ⟨⟨(kept_refl db).1, ?_⟩, published_le_refl _⟩
        intro txn member committed
        rcases (mem_open_transaction db identity txn).mp member with old | rfl
        · exact ⟨txn, old, committed, rfl, rfl, Nat.le_refl _⟩
        · cases committed
  | admitted settings ingressTxnId events =>
      obtain ⟨facts, made⟩ := map_fst_ok ok
      left
      obtain ⟨locked, txn, lock, _, _, ⟨_, rfl⟩ | ⟨opened, _, allocation, _, _, _, _, _, rfl⟩⟩ := admit_events_cases made
      · exact ⟨kept_refl _, published_le_refl _⟩
      · have found := (lock_transaction_ok lock).1
        have named := (db.transactions.mem_of_find _ _ found).2
        subst named
        exact kept_admitted db txn _ allocation _ found opened
  | commit ingressTxnId commitLsn endLsn =>
      obtain ⟨facts, made⟩ := map_fst_ok ok
      obtain ⟨replay, txn, lock, _, ⟨_, _, _, rfl⟩ | ⟨opened, _, _, rfl⟩⟩ := commit_cases made
      · exact .inl (kept_update_replay db txn.slotGeneration (persistThrough endLsn) (fun _ => rfl) (fun _ => rfl))
      · exact .inr (.inl ⟨ingressTxnId, commitLsn, endLsn, replay, txn, rfl, lock, opened, rfl⟩)
  | abort ingressTxnId abortLsn =>
      obtain ⟨finalized, made⟩ := map_fst_ok ok
      left
      obtain ⟨replay, txn, lock, ⟨_, _, rfl⟩ | ⟨_, _, rfl⟩⟩ := abort_cases made
      · exact ⟨kept_refl _, published_le_refl _⟩
      · have found := (lock_transaction_ok lock).1
        have header := kept_update_transaction db ingressTxnId (sealAborted abortLsn) (fun _ => rfl) txn found
          (fun committed => by simp [sealAborted] at committed)
        have moved := kept_update_replay (db.updateTransaction ingressTxnId (sealAborted abortLsn) (fun _ => rfl))
          txn.slotGeneration (releasePayload txn.payloadBytes) (fun _ => rfl) (fun _ => rfl)
        exact ⟨kept_trans _ _ _ header moved.1, moved.2⟩
  | abortSubtransaction ingressTxnId sourceSubxid =>
      obtain ⟨recorded, made⟩ := map_fst_ok ok
      left
      obtain ⟨replay, txn, lock, opened, rfl⟩ :=
        abort_subtransaction_cases db after ingressTxnId sourceSubxid recorded made
      refine ⟨kept_update_transaction db ingressTxnId _ (record_subtransaction_id sourceSubxid) txn
        (lock_transaction_ok lock).1 ?_, published_le_refl _⟩
      intro committed
      rw [(record_subtransaction_frame sourceSubxid txn).2.1, opened] at committed
      cases committed
  | reconcile server slotGeneration =>
      obtain ⟨count, made⟩ := map_fst_ok ok
      left
      obtain ⟨replay, _, ⟨_, rfl⟩ | ⟨_, rfl⟩⟩ := reconcile_cases made
      · exact ⟨kept_refl _, published_le_refl _⟩
      · exact kept_abort_lost db server slotGeneration
  | advanceFrontier slotGeneration =>
      obtain ⟨lsn, made⟩ := map_fst_ok ok
      obtain ⟨replay, active, ⟨_, rfl⟩ | ⟨target, advances, rfl⟩⟩ := advance_frontier_cases made
      · exact .inl ⟨kept_refl _, published_le_refl _⟩
      · exact .inr (.inr ⟨slotGeneration, replay, target, rfl, active, advances, rfl⟩)

theorem safe_after_commit {db : IngressCatalog Payload} (safe : FrontierSafe db) {ingressTxnId : Nat}
    {commitLsn : Lsn} (endLsn : Lsn) {replay : ReplayState} {txn : IngressTransaction Payload}
    (lock : lockTransaction db ingressTxnId = .ok (replay, txn))
    (clear : txn.pendingPublications ≠ 0 → reachedBy replay.publishedLsn commitLsn = false) :
    FrontierSafe ((db.updateTransaction ingressTxnId (sealCommitted commitLsn endLsn) (fun _ => rfl)).updateReplay
      txn.slotGeneration (fun row => persistThrough endLsn (releasePayload txn.payloadBytes row)) (fun _ => rfl)) := by
  obtain ⟨found, active⟩ := lock_transaction_ok lock
  apply safe_of_kept _ _ (kept_update_replay _ _
    (fun row => persistThrough endLsn (releasePayload txn.payloadBytes row)) (fun _ => rfl) (fun _ => rfl)).1
  intro row rowMember header headerMember final generation committed sealed reached
  rcases (db.mem_update_transaction _ (sealCommitted commitLsn endLsn) (fun _ => rfl) txn header found).mp headerMember with
    ⟨old, _⟩ | rfl
  · exact safe row rowMember header old final generation committed sealed reached
  · obtain ⟨replayMember, named, _⟩ := db.active_replay_some _ _ active
    have isReplay : row = replay :=
      db.replayState.row_unique row replay rowMember replayMember (generation.symm.trans named.symm)
    subst isReplay
    cases sealed
    by_contra pending
    rw [clear pending] at reached
    cases reached

theorem safe_after_advance {db : IngressCatalog Payload} (safe : FrontierSafe db) {slotGeneration : Nat}
    {replay : ReplayState} (active : db.activeReplay slotGeneration = some replay)
    {first : IngressTransaction Payload} (sealed : FirstSealed db replay first) {target : Lsn}
    (isTarget : first.finalLsn = some target)
    (clear : ∀ txn ∈ db.transactions.rows, txn.slotGeneration = slotGeneration → txn.status = .committed →
      txn.finalLsn = first.finalLsn → txn.pendingPublications = 0) :
    FrontierSafe (db.updateReplay slotGeneration (publishThrough target) (fun _ => rfl)) := by
  intro row rowMember txn member final generation committed isFinal reached
  obtain ⟨replayMember, named, _⟩ := db.active_replay_some _ _ active
  rcases (db.mem_update_replay _ (publishThrough target) (fun _ => rfl) row).mp rowMember with
    ⟨old, _⟩ | ⟨before, old, hit, rfl⟩
  · exact safe row old txn member final generation committed isFinal reached
  · have isReplay : before = replay := db.replayState.row_unique before replay old replayMember (hit.trans named.symm)
    subst isReplay
    -- a header between the old and the new frontier is the first sealed one or shares its LSN
    cases behindOld : reachedBy before.publishedLsn final with
    | true => exact safe before old txn member final generation committed isFinal behindOld
    | false =>
        have ahead : isAhead before.slotGeneration before.publishedLsn txn = true := by
          simp only [isAhead, isFinal, behindOld, Bool.not_false, Bool.and_true, decide_eq_true_eq]
          exact generation
        have least := sealed.2.2 txn member ahead
        have ordered : target ≤ final := by
          rcases Prod.Lex.le_iff.mp least with lower | ⟨equal, _⟩
          · simp only [frontierKey, isTarget, isFinal, ofLex_toLex, Option.getD_some] at lower
            exact Nat.le_of_lt lower
          · simp only [frontierKey, isTarget, isFinal, ofLex_toLex, Option.getD_some] at equal
            exact Nat.le_of_eq equal
        have within : final ≤ target := by
          simpa [publishThrough] using reached
        have same : txn.finalLsn = first.finalLsn := by rw [isFinal, isTarget, Nat.le_antisymm within ordered]
        exact clear txn member (generation.trans hit) committed same

section Calls

variable [DecidableEq Payload] (codec : PayloadCodec Payload)

theorem safe_ingress_step {db after : IngressCatalog Payload} (safe : FrontierSafe db) {call : IngressCall Payload}
    (clear : FrontierClear db call) (ok : ingressStep codec db call = .ok after) : FrontierSafe after := by
  rcases kept_ingress_step ok with
    ⟨kept, _⟩ | ⟨ingressTxnId, commitLsn, endLsn, replay, txn, rfl, lock, opened, rfl⟩ |
      ⟨slotGeneration, replay, target, rfl, active, advances, rfl⟩
  · exact safe_of_kept db after kept safe
  · obtain ⟨found, active⟩ := lock_transaction_ok lock
    exact safe_after_commit safe endLsn lock (clear txn replay found opened active)
  · obtain ⟨first, sealed, done, isTarget, persisted, _⟩ := advance_target_some advances
    refine safe_after_advance safe active sealed isTarget ?_
    refine clear replay first active sealed done ?_
    intro final isFinal
    rw [isTarget] at isFinal
    cases isFinal
    exact persisted

-- The condition is exact: a call that breaks it leaves an unsafe frontier.
theorem clear_of_safe {db after : IngressCatalog Payload} (accounts : Accounts codec db) {call : IngressCall Payload}
    (ok : ingressStep codec db call = .ok after) (safe : FrontierSafe after) : FrontierClear db call := by
  cases call with
  | commit ingressTxnId commitLsn endLsn =>
      intro txn replay found opened active pending
      obtain ⟨facts, made⟩ := map_fst_ok ok
      obtain ⟨locked, other, lock, _, ⟨committed, _⟩ | ⟨_, _, _, rfl⟩⟩ := commit_cases made
      · have same := (lock_transaction_ok lock).1.symm.trans found
        rw [Option.some.inj same, opened] at committed
        cases committed
      · have same := Option.some.inj ((lock_transaction_ok lock).1.symm.trans found)
        subst same
        obtain ⟨replayMember, named, _⟩ := db.active_replay_some _ _ active
        by_contra reached
        rw [Bool.not_eq_false] at reached
        refine pending (safe (persistThrough endLsn (releasePayload other.payloadBytes replay)) ?_
          (sealCommitted commitLsn endLsn other) ?_ commitLsn named.symm rfl rfl reached)
        · exact (IngressCatalog.mem_update_replay _ _ _ _ _).mpr (.inr ⟨replay, replayMember, named, rfl⟩)
        · exact (db.mem_update_transaction _ (sealCommitted commitLsn endLsn) (fun _ => rfl) other _ found).mpr (.inr rfl)
  | advanceFrontier slotGeneration =>
      intro replay first active sealed done persisted txn member generation committed same
      obtain ⟨final, isFinal, advances⟩ := advance_target_first codec db accounts replay first sealed done persisted
      obtain ⟨lsn, made⟩ := map_fst_ok ok
      obtain ⟨locked, lockActive, ⟨stuck, _⟩ | ⟨target, moved, rfl⟩⟩ := advance_frontier_cases made
      · rw [Option.some.inj (lockActive.symm.trans active), advances] at stuck
        cases stuck
      · have isReplay := Option.some.inj (lockActive.symm.trans active)
        subst isReplay
        rw [advances] at moved
        cases moved
        obtain ⟨replayMember, named, _⟩ := db.active_replay_some _ _ active
        refine safe (publishThrough final locked) ?_ txn member final (generation.trans named.symm) committed
          (same.trans isFinal) (by simp [publishThrough])
        exact (db.mem_update_replay _ (publishThrough final) (fun _ => rfl) _).mpr
          (.inr ⟨locked, replayMember, named, rfl⟩)
  | _ => trivial

theorem published_le_step (rowCodec : RowCodec Payload Row) (db after : SourceCatalog Payload Row) (call : Call Payload)
    (ok : step codec rowCodec db call = .ok after) : PublishedLe db.ingress after.ingress := by
  cases call with
  | ingress call =>
      have taken := (step_ingress_ok ok).1
      rcases kept_ingress_step taken with
        ⟨_, le⟩ | ⟨ingressTxnId, commitLsn, endLsn, replay, txn, _, _, _, same⟩ |
          ⟨slotGeneration, replay, target, _, active, advances, same⟩
      · exact le
      · rw [same]
        exact (kept_update_replay (db.ingress.updateTransaction ingressTxnId (sealCommitted commitLsn endLsn)
          (fun _ => rfl)) txn.slotGeneration (fun row => persistThrough endLsn (releasePayload txn.payloadBytes row))
          (fun _ => rfl) (fun _ => rfl)).2
      · obtain ⟨_, _, _, _, _, ahead⟩ := advance_target_some advances
        rw [same]
        exact published_le_publish active ahead
  | publish slotGeneration =>
      obtain ⟨publication, made⟩ := map_fst_ok ok
      exact (kept_publish made).2
  | stream call =>
      rw [stream_step_ingress ok]
      exact published_le_refl _

theorem safe_step {rowCodec : RowCodec Payload Row} {db after : SourceCatalog Payload Row} {call : Call Payload}
    (safe : FrontierSafe db.ingress) (clear : CallClear db call) (ok : step codec rowCodec db call = .ok after) :
    FrontierSafe after.ingress := by
  cases call with
  | ingress call =>
      exact safe_ingress_step codec safe clear (step_ingress_ok ok).1
  | publish slotGeneration =>
      obtain ⟨publication, made⟩ := map_fst_ok ok
      exact safe_of_kept _ _ (kept_publish made).1 safe
  | stream call =>
      rw [stream_step_ingress ok]
      exact safe

end Calls

-- A pending task of a committed header lies above every frontier that was
-- published before or is published now.
theorem pending_above_frontier {codec : PayloadCodec Payload} {db : IngressCatalog Payload} (accounts : Accounts codec db)
    (safe : FrontierSafe db) {replay : ReplayState} (replayMember : replay ∈ db.replayState.rows)
    {pending : PendingTask Payload} (waits : pending ∈ pendingTasks db replay.slotGeneration) :
    ∃ final, pending.header.finalLsn = some final ∧ reachedBy replay.publishedLsn final = false := by
  simp only [pendingTasks, List.mem_flatMap, List.mem_map, List.mem_filter] at waits
  obtain ⟨txn, ⟨member, isCommitted⟩, task, ⟨taskMember, waiting⟩, rfl⟩ := waits
  simp only [committedIn, decide_eq_true_eq] at isCommitted
  obtain ⟨generation, committed⟩ := isCommitted
  have header := accounts.headers txn member
  have consistent := header.sealed
  simp only [SealedConsistently, committed] at consistent
  obtain ⟨final, _, isFinal, _⟩ := consistent
  refine ⟨final, isFinal, ?_⟩
  by_contra reached
  rw [Bool.not_eq_false] at reached
  have empty := safe replay replayMember txn member final generation committed isFinal reached
  have count := header.pending
  simp only [expectedPending, committed, empty] at count
  exact absurd (List.countP_eq_zero.mp count.symm task taskMember) (by simp [waiting])

def behindFrontier : Fault := .raised "22000" "source chunk causal LSN must follow published ingress frontier"

theorem append_above_frontier (stream : EffectStream Row) (published : Option Lsn) (chunkLsn : Lsn)
    (above : reachedBy published chunkLsn = false) (expected rows bytes : Nat) (payload : List (EffectRow Row)) :
    appendEffectStreamChunk stream published expected .data rows bytes chunkLsn payload ≠ .error behindFrontier := by
  intro rejected
  have causal : causalFault stream published .data chunkLsn ≠ some behindFrontier := by
    unfold causalFault
    cases stream.producer with
    | source slotGeneration sourceOid =>
        simp only [above, Bool.false_eq_true, if_false]
        split <;> simp [behindFrontier]
    | operator resultOid stageId =>
        simp only
        split <;> simp [behindFrontier]
  unfold appendEffectStreamChunk at rejected
  repeat' split at rejected
  all_goals simp_all [behindFrontier]

-- In every run of clear calls, however the calls interleave, the frontier only
-- rises, everything it has reached is published, and no task can fall behind
-- it later; a further call keeps this exactly when it is clear itself.
theorem publication_frontier_safe [DecidableEq Payload] (codec : PayloadCodec Payload) (rowCodec : RowCodec Payload Row)
    (db later : SourceCatalog Payload Row) (reached : Path (step codec rowCodec) CallClear emptyCatalog db)
    (extended : Path (step codec rowCodec) CallClear db later) :
    PublishedLe db.ingress later.ingress ∧ FrontierSafe db.ingress ∧
      (∀ replay ∈ db.ingress.replayState.rows, ∀ frontier, replay.publishedLsn = some frontier →
        ∀ pending ∈ pendingTasks later.ingress replay.slotGeneration,
          ∃ final, pending.header.finalLsn = some final ∧ frontier < final) ∧
      (∀ now ∈ later.ingress.replayState.rows, ∀ pending ∈ pendingTasks later.ingress now.slotGeneration,
        ∃ final, pending.header.finalLsn = some final ∧
          ∀ (stream : EffectStream Row) (expected rows bytes : Nat) (payload : List (EffectRow Row)),
            appendEffectStreamChunk stream now.publishedLsn expected .data rows bytes final payload ≠
              .error behindFrontier) ∧
      ∀ call after, ingressStep codec later.ingress call = .ok after →
        (FrontierSafe after ↔ FrontierClear later.ingress call) := by
  have keeps : ∀ (state : SourceCatalog Payload Row) (call : Call Payload) (after : SourceCatalog Payload Row),
      Accounts codec state.ingress ∧ FrontierSafe state.ingress → CallClear state call →
      step codec rowCodec state call = .ok after → Accounts codec after.ingress ∧ FrontierSafe after.ingress :=
    fun state call after good clear taken => ⟨accounts_step good.1 taken, safe_step codec good.2 clear taken⟩
  have start : Accounts codec (emptyIngress : IngressCatalog Payload) ∧
      FrontierSafe (emptyIngress : IngressCatalog Payload) :=
    ⟨accounts_empty codec, fun replay member => by simp [emptyIngress, Table.empty] at member⟩
  have safeNow := path_invariant (fun state => Accounts codec state.ingress ∧ FrontierSafe state.ingress) keeps
    emptyCatalog db start reached
  have safeLater := path_invariant (fun state => Accounts codec state.ingress ∧ FrontierSafe state.ingress) keeps
    db later safeNow extended
  have rises : PublishedLe db.ingress later.ingress :=
    path_related (fun before after => PublishedLe before.ingress after.ingress) (fun _ => published_le_refl _)
      (fun _ _ _ => published_le_trans _ _ _)
      (fun state call after _ taken => published_le_step codec rowCodec state after call taken) db later extended
  refine ⟨rises, safeNow.2, ?_, ?_, ?_⟩
  · intro replay member frontier published pending waits
    obtain ⟨now, nowMember, same, higher⟩ := rises replay member
    obtain ⟨current, isCurrent, above⟩ := higher frontier published
    obtain ⟨final, isFinal, ahead⟩ := pending_above_frontier safeLater.1 safeLater.2 nowMember (same.symm ▸ waits)
    refine ⟨final, isFinal, ?_⟩
    rw [isCurrent, reached_by_some, decide_eq_false_iff_not] at ahead
    exact Nat.lt_of_le_of_lt above (Nat.lt_of_not_le ahead)
  · intro now nowMember pending waits
    obtain ⟨final, isFinal, ahead⟩ := pending_above_frontier safeLater.1 safeLater.2 nowMember waits
    exact ⟨final, isFinal, fun stream expected rows bytes payload =>
      append_above_frontier stream now.publishedLsn final ahead expected rows bytes payload⟩
  · intro call after taken
    exact ⟨clear_of_safe codec safeLater.1 taken,
      fun clear => safe_ingress_step codec safeLater.2 clear taken⟩

theorem opened_path : Path (step numberPayload numberRow) CallClear emptyCatalog
    (afterCalls numberPayload numberRow (publishedRun.take 3)) :=
  .next _ _ (.ingress (.admitted anySource 1 [insertion 11 5 100 3, insertion 12 5 200 4]))
    (.next _ _ (.ingress (.claim ⟨1, 5, 10⟩)) (.next _ _ firstGeneration .here trivial rfl) trivial rfl) trivial rfl

theorem publication_frontier_safe_published :
    PublishedLe (afterCalls numberPayload numberRow (publishedRun.take 3)).ingress
        (afterCalls numberPayload numberRow (publishedRun.take 4)).ingress ∧
      FrontierSafe (afterCalls numberPayload numberRow (publishedRun.take 3)).ingress := by
  have committed : Path (step numberPayload numberRow) CallClear
      (afterCalls numberPayload numberRow (publishedRun.take 3))
      (afterCalls numberPayload numberRow (publishedRun.take 4)) := by
    refine .next _ _ (.ingress (.commit 1 20 21)) .here ?_ rfl
    intro txn replay _ _ active _
    have unset : ∀ row ∈ (afterCalls numberPayload numberRow (publishedRun.take 3)).ingress.replayState.rows,
        row.publishedLsn = none := by decide
    rw [unset replay (IngressCatalog.active_replay_some _ _ _ active).1]
    rfl
  have safe := publication_frontier_safe numberPayload numberRow _ _ opened_path committed
  exact ⟨safe.1, safe.2.1⟩

-- An aborted header at LSN 20 with the smaller key carries the frontier past
-- the commit at LSN 20, whose task is then refused by its stream.
def frontierJump : List (Call Nat) :=
  [firstGeneration, .stream (.ensureSource 1 100 10 10), .stream (.attach 1 true ⟨900, 0, 0⟩ 5),
    .ingress (.claim ⟨1, 5, 10⟩), .ingress (.claim ⟨1, 6, 12⟩),
    .ingress (.admitted anySource 2 [insertion 13 6 100 3]), .ingress (.abort 1 20), .ingress (.commit 2 20 25),
    .ingress (.advanceFrontier 1)]

theorem frontier_jumps_pending_commit :
    ∃ db, run (step numberPayload numberRow) emptyCatalog frontierJump = .ok db ∧
      (db.ingress.replayState.rows.map ReplayState.publishedLsn = [some 20]) ∧
      (db.ingress.transactions.rows.map fun txn => (txn.status, txn.finalLsn, txn.pendingPublications)) =
        [(.aborted, some 20, 0), (.committed, some 20, 1)] ∧
      step numberPayload numberRow db (.publish 1) = .error behindFrontier :=
  ⟨_, rfl, rfl, rfl, rfl⟩

end Shiba.Publication
