import Shiba.Publication.Retention

set_option autoImplicit false

namespace Shiba.Publication

open SerialTable Transition Shiba.Ingress Shiba.Stream

variable {Payload Row : Type}

-- Where the session, the slot and the replay row stand to each other.
structure Ledger (slotName : String) (world : IngressWorld Payload Row) (replay : ReplayState) : Prop where
  only : Only world.catalog.ingress replay
  generation : replay.slotGeneration = world.session.generation
  active : replay.state = .active
  named : replay.slotName = slotName
  baseline : replay.slotBaselineLsn = world.slotBaselineLsn
  above : AboveBaseline replay
  acknowledged : world.acknowledgedLsn ≤ replay.persistedLsn.getD 0
  session : world.session.persistedLsn ≤ replay.persistedLsn.getD 0
  confirmed : world.confirmedFlushLsn = world.slotBaselineLsn ∨
    (world.slotBaselineLsn ≤ world.confirmedFlushLsn ∧ world.confirmedFlushLsn ≤ world.acknowledgedLsn)

-- The server will not send the transaction again, in this session or a later one.
def Ended (wal : SourceWal) (session : Session) (persisted : Lsn) (txn : IngressTransaction Payload) : Prop :=
  ∃ commitLsn endLsn, wal.ending txn.sourceXid txn.transactionStartLsn = some (.committed commitLsn endLsn) ∧
    endLsn ≤ persisted ∧
    ((txn.sourceXid, txn.transactionStartLsn) ∈ session.ended ∨ commitLsn < session.startLsn)

-- A deleted header that nothing in the catalog can miss.
structure Gone (db : IngressCatalog Payload) (txn : IngressTransaction Payload) : Prop where
  drained : Drained txn
  covered : Covered txn
  fits : db.transactions.Fits txn
  behind : ∀ replay ∈ db.replayState.rows, isAhead replay.slotGeneration replay.publishedLsn txn = false
  replaced : txn.status = .committed → ∀ other ∈ db.transactions.rows, other.identity ≠ txn.identity

structure Retained (codec : PayloadCodec Payload) (slotName : String) (wal : SourceWal) (world : IngressWorld Payload Row)
    (replay : ReplayState) : Prop where
  accounts : Accounts codec world.catalog.ingress
  distinct : DistinctIdentities world.catalog.ingress
  covered : ∀ txn ∈ world.catalog.ingress.transactions.rows, Covered txn
  ledger : Ledger slotName world replay
  ended : ∀ txn ∈ world.catalog.ingress.transactions.rows ++ world.deleted, txn.status = .committed →
    Ended wal world.session (replay.persistedLsn.getD 0) txn
  gone : ∀ txn ∈ world.deleted, Gone world.catalog.ingress txn
  apart : (world.deleted.map IngressTransaction.ingressTxnId).Nodup

def nothing : ReplayIdentity → Prop := fun _ => False

def noEnd : Lsn → Prop := fun _ => False

theorem gone_kept {opens seals : ReplayIdentity → Prop} {ends : Lsn → Prop} {db after : IngressCatalog Payload}
    {replay moved : ReplayState} (kept : Kept opens seals ends db after replay moved) (only : Only db replay)
    {txn : IngressTransaction Payload} (gone : Gone db txn) (apart : txn.status = .committed → ¬ opens txn.identity) :
    Gone after txn := by
  refine ⟨gone.drained, gone.covered, ⟨Nat.lt_of_lt_of_le gone.fits.1 kept.rows.next, ?_⟩, ?_, ?_⟩
  · intro present
    obtain ⟨other, member, same⟩ := List.mem_map.mp present
    rcases kept.rows.rows other member with ⟨before, old, continues⟩ | new
    · exact gone.fits.2 (List.mem_map.mpr ⟨before, old, continues.key.trans same⟩)
    · have fresh := new.fresh
      have known := gone.fits.1
      omega
  · intro other member
    rw [kept.only] at member
    obtain rfl := List.mem_singleton.mp member
    have passed := gone.behind replay (by rw [only]; exact List.mem_singleton.mpr rfl)
    cases final : txn.finalLsn with
    | none => simp [isAhead, final]
    | some lsn =>
        simp only [isAhead, final, Bool.and_eq_false_iff, Bool.not_eq_false'] at passed ⊢
        rw [kept.later.generation]
        exact passed.imp_right (kept.later.published lsn)
  · intro committed other member same
    rcases kept.rows.rows other member with ⟨before, old, continues⟩ | new
    · exact gone.replaced committed before old (continues.identity.trans same)
    · exact apart committed (same ▸ new.opened)

section Steps

variable {codec : PayloadCodec Payload} {slotName : String} (wal : SourceWal) {world : IngressWorld Payload Row} (after : IngressWorld Payload Row)
  {replay moved : ReplayState}

theorem retained_kept (retained : Retained codec slotName wal world replay) {opens seals : ReplayIdentity → Prop}
    {ends : Lsn → Prop} (kept : Kept opens seals ends world.catalog.ingress after.catalog.ingress replay moved)
    (accounts : Accounts codec after.catalog.ingress) (ledger : Ledger slotName after moved)
    (sameDeleted : after.deleted = world.deleted)
    (opened : ∀ txn : IngressTransaction Payload, Ended wal world.session (replay.persistedLsn.getD 0) txn → ¬ opens txn.identity)
    (sealed : ∀ txn : IngressTransaction Payload, seals txn.identity → Ended wal after.session (moved.persistedLsn.getD 0) txn)
    (lasts : ∀ txn : IngressTransaction Payload, Ended wal world.session (replay.persistedLsn.getD 0) txn →
      Ended wal after.session (moved.persistedLsn.getD 0) txn) : Retained codec slotName wal after moved := by
  refine ⟨accounts, kept.rows.distinct retained.distinct, ?_, ledger, ?_, ?_, sameDeleted ▸ retained.apart⟩
  · intro txn member
    rcases kept.rows.rows txn member with ⟨before, old, continues⟩ | new
    · exact continues.covered (retained.covered before old)
    · exact new.covered
  · intro txn member committed
    rcases List.mem_append.mp member with present | deleted
    · rcases kept.rows.rows txn present with ⟨before, old, continues⟩ | new
      · rcases continues.committed committed with already | justSealed
        · have known := lasts before (retained.ended before (List.mem_append_left _ old) already)
          have xid := congrArg ReplayIdentity.sourceXid continues.identity
          have start := congrArg ReplayIdentity.transactionStartLsn continues.identity
          simp only [IngressTransaction.identity] at xid start
          unfold Ended at known ⊢
          rwa [xid, start] at known
        · exact sealed txn justSealed
      · exact sealed txn (new.committed committed)
    · rw [sameDeleted] at deleted
      exact lasts txn (retained.ended txn (List.mem_append_right _ deleted) committed)
  · intro txn member
    rw [sameDeleted] at member
    refine gone_kept kept retained.ledger.only (retained.gone txn member) ?_
    intro committed
    exact opened txn (retained.ended txn (List.mem_append_right _ member) committed)

-- A step that opens and seals no transaction and leaves the session alone.
theorem retained_quiet (retained : Retained codec slotName wal world replay)
    (kept : Kept nothing nothing noEnd world.catalog.ingress after.catalog.ingress replay moved)
    (accounts : Accounts codec after.catalog.ingress) (session : after.session = world.session)
    (baseline : after.slotBaselineLsn = world.slotBaselineLsn) (slot : after.confirmedFlushLsn = world.confirmedFlushLsn)
    (acknowledged : after.acknowledgedLsn = world.acknowledgedLsn) (sameDeleted : after.deleted = world.deleted) :
    Retained codec slotName wal after moved := by
  have old := retained.ledger
  have later := kept.later
  refine retained_kept wal after retained kept accounts ?_ sameDeleted (fun _ _ => id) (fun _ wrong => wrong.elim) ?_
  · constructor
    · exact kept.only
    · rw [later.generation, session]
      exact old.generation
    · exact later.state.trans old.active
    · exact later.slotName.trans old.named
    · rw [later.baseline, baseline]
      exact old.baseline
    · exact later.above (fun _ wrong => wrong.elim) old.above
    · rw [acknowledged]
      exact Nat.le_trans old.acknowledged later.persisted
    · rw [session]
      exact Nat.le_trans old.session later.persisted
    · rw [slot, baseline, acknowledged]
      exact old.confirmed
  · rintro txn ⟨commitLsn, endLsn, ending, within, done⟩
    refine ⟨commitLsn, endLsn, ending, Nat.le_trans within later.persisted, ?_⟩
    rw [session]
    exact done

end Steps

section

variable (codec : PayloadCodec Payload) (db : IngressCatalog Payload)

theorem drained_collectable (accounts : Accounts codec db) (due : Nat → Bool) (txn : IngressTransaction Payload)
    (member : txn ∈ db.transactions.rows) (good : collectable db due txn = true) : Drained txn := by
  obtain ⟨terminal, counted, _⟩ := collectable_iff good
  refine ⟨terminal, counted, ?_⟩
  intro committed task inTasks
  have pending := (accounts.headers txn member).pending
  rw [counted, expectedPending, committed] at pending
  have none := List.countP_eq_zero.mp pending.symm task inTasks
  exact eq_false_of_ne_true none

theorem collectable_behind (replay : ReplayState) (only : Only db replay) (due : Nat → Bool)
    (txn : IngressTransaction Payload) (good : collectable db due txn = true) :
    isAhead replay.slotGeneration replay.publishedLsn txn = false := by
  obtain ⟨_, _, other, found, _, published⟩ := collectable_iff good
  have member := (db.replayState.mem_of_find _ _ found).1
  rw [only] at member
  obtain rfl := List.mem_singleton.mp member
  obtain ⟨lsn, final, reached⟩ := (Option.any_eq_true _ _).mp published
  simp [isAhead, final, reached]

theorem retained_collect (slotName : String) (wal : SourceWal) (world : IngressWorld Payload Row) (replay : ReplayState)
    (retained : Retained codec slotName wal world replay) (ingress : IngressCatalog Payload) (due : Nat → Bool)
    (maxTransactions count : Nat) (ok : gcChangeLog world.catalog.ingress due maxTransactions = .ok (ingress, count)) :
    Retained codec slotName wal
      { withIngress world ingress with deleted := world.deleted ++ garbage world.catalog.ingress due maxTransactions } replay := by
  have old := retained.ledger
  obtain ⟨sameReplay, sameNext, rows⟩ := gc_cases _ _ due maxTransactions count ok
  have kept := gc_kept nothing nothing noEnd old.only ok
  refine ⟨accounts_gc retained.accounts ok, kept.rows.distinct retained.distinct, ?_,
    ⟨kept.only, old.generation, old.active, old.named, old.baseline, old.above, old.acknowledged, old.session, old.confirmed⟩,
    ?_, ?_, ?_⟩
  · intro txn member
    exact retained.covered txn ((rows txn).mp member).1
  · intro txn member committed
    apply retained.ended txn _ committed
    rcases List.mem_append.mp member with present | deleted
    · exact List.mem_append_left _ ((rows txn).mp present).1
    · rcases List.mem_append.mp deleted with before | dead
      · exact List.mem_append_right _ before
      · exact List.mem_append_left _ (garbage_mem _ due _ txn dead).1
  · intro txn member
    rcases List.mem_append.mp member with before | dead
    · exact gone_kept kept old.only (retained.gone txn before) fun _ => id
    · obtain ⟨present, good⟩ := garbage_mem _ due _ txn dead
      refine ⟨drained_collectable codec _ retained.accounts due txn present good, retained.covered txn present, ⟨?_, ?_⟩, ?_, ?_⟩
      · exact Nat.lt_of_lt_of_eq (world.catalog.ingress.transactions.below txn present) sameNext.symm
      · intro still
        obtain ⟨other, otherMember, same⟩ := List.mem_map.mp still
        obtain ⟨otherOld, otherKept⟩ := (rows other).mp otherMember
        exact otherKept (world.catalog.ingress.transactions.row_unique other txn otherOld present same ▸ dead)
      · intro other otherMember
        change other ∈ ingress.replayState.rows at otherMember
        rw [sameReplay, old.only] at otherMember
        obtain rfl := List.mem_singleton.mp otherMember
        exact collectable_behind _ other old.only due txn good
      · intro _ other otherMember same
        obtain ⟨otherOld, otherKept⟩ := (rows other).mp otherMember
        exact otherKept (retained.distinct other otherOld txn present same ▸ dead)
  · change ((world.deleted ++ garbage world.catalog.ingress due maxTransactions).map _).Nodup
    rw [List.map_append]
    refine List.Nodup.append retained.apart (garbage_apart _ due _) ?_
    intro key before dead
    obtain ⟨txn, gone, rfl⟩ := List.mem_map.mp before
    obtain ⟨other, isDead, same⟩ := List.mem_map.mp dead
    exact (retained.gone txn gone).fits.2 (List.mem_map.mpr ⟨other, (garbage_mem _ due _ other isDead).1, same⟩)

end

section

variable {baseline : Lsn} {server : ServerFacts} {batch : IngressBatch Payload} {slotName : String} {wal : SourceWal}
  {world : IngressWorld Payload Row} {codec : PayloadCodec Payload}

-- The transaction of a sent batch has not ended for this session.
theorem sends_unended {persisted : Lsn} {session : Session} (sent : sends wal baseline session batch = true)
    (generation : Nat) {txn : IngressTransaction Payload} (ended : Ended wal session persisted txn) :
    txn.identity ≠ batch.identity generation := by
  intro same
  have xid : txn.sourceXid = batch.sourceXid := congrArg ReplayIdentity.sourceXid same
  have start : txn.transactionStartLsn = batch.transactionStartLsn := congrArg ReplayIdentity.transactionStartLsn same
  obtain ⟨commitLsn, endLsn, ending, _, done⟩ := ended
  rw [xid, start] at ending done
  simp only [sends, ending, Option.all_some, TxnEnd.recordLsn, Bool.and_eq_true, decide_eq_true_eq] at sent
  obtain ⟨⟨⟨within, _⟩, open_⟩, _⟩ := sent
  rcases done with already | before
  · exact open_ already
  · exact absurd (of_decide_eq_true within) (Nat.not_le_of_lt before)

theorem sends_commit {session : Session} (sent : sends wal baseline session batch = true) {commitLsn endLsn : Lsn}
    (boundary : batch.boundary = some (.commit commitLsn endLsn)) :
    wal.ending batch.sourceXid batch.transactionStartLsn = some (.committed commitLsn endLsn) ∧ baseline ≤ endLsn := by
  simp only [sends, boundary, announces, Bool.and_eq_true, decide_eq_true_eq] at sent
  obtain ⟨⟨within, _⟩, ending⟩ := sent
  simp only [ending, Option.all_some, TxnEnd.recordLsn, Bool.and_eq_true] at within
  exact ⟨ending, Nat.le_trans (of_decide_eq_true within.2) (Nat.le_of_lt (wal.nonempty _ _ _ _ ending))⟩

theorem persist_batch_kept [DecidableEq Payload] (codec : PayloadCodec Payload) (settings : AdmissionSettings Payload)
    (db after : IngressCatalog Payload) (replay : ReplayState) (only : Only db replay) (accounts : Accounts codec db)
    (generation : Nat) (batch : IngressBatch Payload) (seals : ReplayIdentity → Prop) (ends : Lsn → Prop)
    (persists : ∀ commitLsn endLsn, batch.boundary = some (.commit commitLsn endLsn) →
      ends endLsn ∧ seals (batch.identity generation))
    (ok : persistIngressBatch codec settings db generation batch = .ok after) :
    Accounts codec after ∧ ∃ moved, Kept (· = batch.identity generation) seals ends db after replay moved ∧
      ∀ commitLsn endLsn, batch.boundary = some (.commit commitLsn endLsn) → endLsn ≤ moved.persistedLsn.getD 0 := by
  obtain ⟨⟨claimedDb, row⟩, claim, ok⟩ := bind_ok_iff.mp ok
  obtain ⟨⟨admittedDb, facts⟩, admits, ok⟩ := bind_ok_iff.mp ok
  change finishBatch admittedDb row.ingressTxnId batch.boundary = .ok after at ok
  have claimStep : ingressStep codec db (.claim (batch.identity generation)) = .ok claimedDb := by
    simp [ingressStep, claim, Except.map]
  have admitStep : ingressStep codec claimedDb (.admitted settings row.ingressTxnId batch.events) = .ok admittedDb := by
    simp [ingressStep, admits, Except.map]
  have claimedAccounts := accounts_ingress_step accounts _ claimStep
  have admittedAccounts := accounts_ingress_step claimedAccounts _ admitStep
  have finished : Accounts codec after := by
    cases boundary : batch.boundary with
    | none =>
        rw [boundary] at ok
        cases ok
        exact admittedAccounts
    | some end_ =>
        rw [boundary] at ok
        cases end_ with
        | commit commitLsn endLsn => exact accounts_ingress_step admittedAccounts (.commit _ commitLsn endLsn) ok
        | abortTransaction abortLsn => exact accounts_ingress_step admittedAccounts (.abort _ abortLsn) ok
        | abortSubtransaction subxid =>
            exact accounts_ingress_step admittedAccounts (.abortSubtransaction _ subxid) ok
  refine ⟨finished, ?_⟩
  obtain ⟨claimKept, txn, member, named, identity⟩ :=
    claim_kept (· = batch.identity generation) seals ends only _ row rfl claim
  obtain ⟨staged, admitKept⟩ := admit_kept (· = batch.identity generation) seals ends claimKept.only admits
  have sealing : ∀ commitLsn endLsn, batch.boundary = some (.commit commitLsn endLsn) →
      ends endLsn ∧ ∀ moved ∈ admittedDb.transactions.rows, moved.ingressTxnId = row.ingressTxnId → seals moved.identity := by
    intro commitLsn endLsn boundary
    obtain ⟨ending, sealed⟩ := persists commitLsn endLsn boundary
    refine ⟨ending, ?_⟩
    intro moved movedMember movedNamed
    rw [← rows_keep_identity _ _ _ _ admitKept.rows txn moved member movedMember (named.trans movedNamed.symm), identity]
    exact sealed
  obtain ⟨final, finishKept, covers⟩ := finish_kept (· = batch.identity generation) seals ends admitKept.only sealing ok
  refine ⟨final, ⟨?_, finishKept.only, ?_⟩, covers⟩
  · exact rows_keep_trans _ _ _ _ _ claimKept.rows (rows_keep_trans _ _ _ _ _ admitKept.rows finishKept.rows)
  · exact later_trans _ _ _ _ claimKept.later (later_trans _ _ _ _ admitKept.later finishKept.later)

theorem session_after_generation (session : Session) (batch : IngressBatch Payload) :
    (session.after batch).generation = session.generation ∧ (session.after batch).startLsn = session.startLsn ∧
      ∀ key ∈ session.ended, key ∈ (session.after batch).ended := by
  unfold Session.after
  split
  · exact ⟨rfl, rfl, fun key member => List.mem_append_left _ member⟩
  · exact ⟨rfl, rfl, fun key member => List.mem_append_left _ member⟩
  · exact ⟨rfl, rfl, fun key member => member⟩
  · exact ⟨rfl, rfl, fun key member => member⟩

theorem session_after_persisted (session : Session) (batch : IngressBatch Payload) (bound : Lsn)
    (within : session.persistedLsn ≤ bound)
    (covers : ∀ commitLsn endLsn, batch.boundary = some (.commit commitLsn endLsn) → endLsn ≤ bound) :
    (session.after batch).persistedLsn ≤ bound := by
  unfold Session.after
  split
  · rename_i commitLsn endLsn boundary
    exact Nat.max_le.mpr ⟨within, covers _ _ boundary⟩
  · exact within
  · exact within
  · exact within

section

variable {ingress : IngressCatalog Payload} {replay : ReplayState}

theorem retained_deliver [DecidableEq Payload] (retained : Retained codec slotName wal world replay)
    {settings : AdmissionSettings Payload} (sent : sends wal world.slotBaselineLsn world.session batch = true)
    (ok : persistIngressBatch codec settings world.catalog.ingress world.session.generation batch = .ok ingress) :
    ∃ moved, Retained codec slotName wal { withIngress world ingress with session := world.session.after batch } moved := by
  have old := retained.ledger
  obtain ⟨accounts, moved, kept, covers⟩ := persist_batch_kept codec settings _ ingress replay old.only retained.accounts
    world.session.generation batch
    (fun identity => identity = batch.identity world.session.generation ∧
      ∃ commitLsn endLsn, batch.boundary = some (.commit commitLsn endLsn))
    (fun lsn => ∃ commitLsn, batch.boundary = some (.commit commitLsn lsn))
    (fun commitLsn endLsn boundary => ⟨⟨commitLsn, boundary⟩, rfl, commitLsn, endLsn, boundary⟩) ok
  have later := kept.later
  obtain ⟨generation, start, keepsEnded⟩ := session_after_generation world.session batch
  refine ⟨moved, retained_kept wal _ retained kept accounts ?_ rfl ?_ ?_ ?_⟩
  · refine ⟨kept.only, ?_, later.state.trans old.active, later.slotName.trans old.named, later.baseline.trans old.baseline,
      ?_, Nat.le_trans old.acknowledged later.persisted, ?_, old.confirmed⟩
    · exact later.generation.trans (old.generation.trans generation.symm)
    · refine later.above ?_ old.above
      rintro lsn ⟨commitLsn, boundary⟩
      rw [old.baseline]
      exact (sends_commit sent boundary).2
    · exact session_after_persisted world.session batch _ (Nat.le_trans old.session later.persisted) covers
  · intro txn ended
    exact sends_unended sent _ ended
  · rintro txn ⟨same, commitLsn, endLsn, boundary⟩
    have xid : txn.sourceXid = batch.sourceXid := congrArg ReplayIdentity.sourceXid same
    have first : txn.transactionStartLsn = batch.transactionStartLsn := congrArg ReplayIdentity.transactionStartLsn same
    refine ⟨commitLsn, endLsn, ?_, covers commitLsn endLsn boundary, .inl ?_⟩
    · rw [xid, first]
      exact (sends_commit sent boundary).1
    · rw [xid, first]
      simp [Session.after, boundary]
  · rintro txn ⟨commitLsn, endLsn, ending, within, done⟩
    refine ⟨commitLsn, endLsn, ending, Nat.le_trans within later.persisted, ?_⟩
    rcases done with already | before
    · exact .inl (keepsEnded _ already)
    · exact .inr (Nat.lt_of_lt_of_eq before start.symm)

theorem accounts_bootstrap [DecidableEq Payload] {db after : IngressCatalog Payload} (accounts : Accounts codec db)
    {slot : Option LogicalSlot} {session : Session} (ok : bootstrapIngress db server slot slotName = .ok (after, session)) :
    Accounts codec after := by
  unfold bootstrapIngress at ok
  obtain ⟨⟨ensured, generation⟩, ensure, ok⟩ := bind_ok_iff.mp ok
  obtain ⟨⟨reconciled, count⟩, reconcile, ok⟩ := bind_ok_iff.mp ok
  have ensureStep : ingressStep codec db (.ensureGeneration server slot slotName false) = .ok ensured := by
    simp [ingressStep, ensure, Except.map]
  have reconcileStep : ingressStep codec ensured (.reconcile server generation) = .ok reconciled := by
    simp [ingressStep, reconcile, Except.map]
  have both := accounts_ingress_step (accounts_ingress_step accounts _ ensureStep) _ reconcileStep
  simp only at ok
  split at ok
  · cases ok
  · cases ok
    exact both

theorem retained_restart [DecidableEq Payload] (retained : Retained codec slotName wal world replay) {session : Session}
    (ok : bootstrapIngress world.catalog.ingress server world.slot slotName = .ok (ingress, session)) :
    ∃ moved, Retained codec slotName wal { withIngress world ingress with session := session } moved := by
  have old := retained.ledger
  have accounts := accounts_bootstrap retained.accounts ok
  obtain ⟨moved, kept, rfl⟩ := bootstrap_kept nothing nothing noEnd old.only old.active old.named ok
  have later := kept.later
  refine ⟨moved, retained_kept wal _ retained kept accounts ?_ rfl (fun _ _ => id) (fun _ wrong => wrong.elim) ?_⟩
  · exact ⟨kept.only, rfl, later.state.trans old.active, later.slotName.trans old.named, later.baseline.trans old.baseline,
      later.above (fun _ wrong => wrong.elim) old.above, Nat.le_trans old.acknowledged later.persisted, Nat.le_refl _,
      old.confirmed⟩
  · rintro txn ⟨commitLsn, endLsn, ending, within, _⟩
    -- The new session starts at the persisted LSN, which lies past the record.
    have reached := Nat.le_trans within later.persisted
    exact ⟨commitLsn, endLsn, ending, reached, .inr (Nat.lt_of_lt_of_le (wal.nonempty _ _ _ _ ending) reached)⟩

theorem retained_slot (retained : Retained codec slotName wal world replay) {confirmedFlushLsn acknowledgedLsn : Lsn}
    (persisted : acknowledgedLsn ≤ replay.persistedLsn.getD 0) (confirmed : confirmedFlushLsn = world.slotBaselineLsn ∨
      (world.slotBaselineLsn ≤ confirmedFlushLsn ∧ confirmedFlushLsn ≤ acknowledgedLsn)) :
    Retained codec slotName wal
      { world with confirmedFlushLsn := confirmedFlushLsn, acknowledgedLsn := acknowledgedLsn } replay := by
  have old := retained.ledger
  exact ⟨retained.accounts, retained.distinct, retained.covered,
    ⟨old.only, old.generation, old.active, old.named, old.baseline, old.above, persisted, old.session, confirmed⟩,
    retained.ended, retained.gone, retained.apart⟩

end

theorem retained_act [DecidableEq Payload] {rowCodec : RowCodec Payload Row} {after : IngressWorld Payload Row}
    {action : Action Payload} (invariant : ∃ replay, Retained codec slotName wal world replay)
    (taken : act codec rowCodec slotName wal world action = .ok after) :
    ∃ replay, Retained codec slotName wal after replay := by
  obtain ⟨replay, retained⟩ := invariant
  have old := retained.ledger
  cases action with
  | deliver settings batch =>
      simp only [act] at taken
      split at taken
      · rename_i sent
        obtain ⟨ingress, ok, done⟩ := bind_ok_iff.mp taken
        cases done
        exact retained_deliver retained sent ok
      · cases taken
  | publish =>
      obtain ⟨⟨catalog, publication⟩, ok, done⟩ := bind_ok_iff.mp taken
      cases done
      have kept := publish_kept nothing nothing noEnd old.only ok
      exact ⟨replay, retained_quiet wal _ retained kept (accounts_publish retained.accounts ok) rfl rfl rfl rfl rfl⟩
  | advanceFrontier =>
      obtain ⟨⟨ingress, lsn⟩, ok, done⟩ := bind_ok_iff.mp taken
      cases done
      obtain ⟨moved, kept⟩ := advance_kept nothing nothing noEnd old.only _ lsn ok
      have stepped : ingressStep codec world.catalog.ingress (.advanceFrontier world.session.generation) = .ok ingress := by
        simp [ingressStep, ok, Except.map]
      exact ⟨moved, retained_quiet wal _ retained kept
        (accounts_ingress_step retained.accounts _ stepped) rfl rfl rfl rfl rfl⟩
  | stream call =>
      obtain ⟨catalog, ok, done⟩ := bind_ok_iff.mp taken
      cases done
      have same := stream_step_ingress ok
      have kept : Kept nothing nothing noEnd world.catalog.ingress catalog.ingress replay replay := by
        rw [same]
        exact ⟨rows_keep_refl _ _ _, old.only, later_refl _ _⟩
      exact ⟨replay, retained_quiet wal _ retained kept (same ▸ retained.accounts) rfl rfl rfl rfl rfl⟩
  | acknowledge lsn =>
      simp only [act] at taken
      split at taken
      · rename_i within
        cases taken
        refine ⟨replay, retained_slot retained ?_ ?_⟩
        · exact Nat.max_le.mpr ⟨old.acknowledged, Nat.le_trans within old.session⟩
        · exact old.confirmed.imp_right fun between => ⟨between.1, Nat.le_trans between.2 (Nat.le_max_left _ _)⟩
      · cases taken
  | recordFeedback lsn =>
      simp only [act] at taken
      split at taken
      · cases taken
      · obtain ⟨⟨ingress, facts⟩, ok, done⟩ := bind_ok_iff.mp taken
        cases done
        obtain ⟨moved, kept⟩ := feedback_kept nothing nothing noEnd old.only _ lsn facts old.generation ok
        refine ⟨moved, retained_quiet wal _ retained kept ?_ rfl rfl rfl rfl rfl⟩
        rcases record_feedback_cases ok with rfl | rfl
        · exact retained.accounts
        · exact accounts_update_replay codec _ retained.accounts _ (confirmThrough lsn) (fun _ => rfl) (fun _ => rfl)
  | confirm lsn =>
      simp only [act] at taken
      split at taken
      · rename_i within
        cases taken
        exact ⟨replay, retained_slot retained old.acknowledged within⟩
      · cases taken
  | reconcileReplaySafe =>
      obtain ⟨⟨ingress, safe⟩, ok, done⟩ := bind_ok_iff.mp taken
      cases done
      obtain ⟨moved, kept⟩ := safe_kept nothing nothing noEnd old.only world.slot _ safe old.generation ok
      refine ⟨moved, retained_quiet wal _ retained kept ?_ rfl rfl rfl rfl rfl⟩
      rcases reconcile_safe_cases ok with rfl | ⟨actual, rfl⟩
      · exact retained.accounts
      · exact accounts_update_replay codec _ retained.accounts _ (proveSafe actual) (fun _ => rfl) (fun _ => rfl)
  | collect due maxTransactions =>
      obtain ⟨⟨ingress, count⟩, ok, done⟩ := bind_ok_iff.mp taken
      cases done
      exact ⟨replay, retained_collect codec slotName wal world replay retained ingress due maxTransactions count ok⟩
  | restart server =>
      obtain ⟨⟨ingress, session⟩, ok, done⟩ := bind_ok_iff.mp taken
      cases done
      exact retained_restart retained ok

theorem retained_installed (codec : PayloadCodec Payload) (slotName : String) (wal : SourceWal) (server : ServerFacts)
    (baseline : Lsn) :
    Retained codec slotName wal (installed slotName server baseline : IngressWorld Payload Row)
      (freshReplay server slotName baseline 1) := by
  constructor
  · exact accounts_open_generation codec emptyIngress (accounts_empty codec) server slotName baseline
  · intro a member
    cases member
  · intro txn member
    cases member
  · refine ⟨rfl, rfl, rfl, rfl, rfl, ?_, Nat.le_refl _, Nat.le_refl _, .inl rfl⟩
    intro lsn wrong
    cases wrong
  · intro txn member
    cases member
  · intro txn member
    cases member
  · exact List.nodup_nil

-- The slot stands between its baseline and what this catalog persisted.
theorem slot_proves_safety {replay : ReplayState} (retained : Retained codec slotName wal world replay) :
    ∃ result, reconcileIngressReplaySafe world.catalog.ingress world.slot world.session.generation = .ok result := by
  have old := retained.ledger
  have found := active_only old.only old.active
  rw [old.generation] at found
  have proven : unprovenSlot replay world.confirmedFlushLsn = false := by
    have acknowledged := old.acknowledged
    have above := old.above
    unfold unprovenSlot
    rw [old.baseline]
    cases persisted : replay.persistedLsn with
    | none =>
        rw [persisted, Option.getD_none] at acknowledged
        rcases old.confirmed with atBaseline | between
        · simp [atBaseline]
        · have low : world.slotBaselineLsn = world.confirmedFlushLsn :=
            Nat.le_antisymm between.1 (Nat.le_trans (Nat.le_trans between.2 acknowledged) (Nat.zero_le _))
          simp [low]
    | some lsn =>
        rw [persisted, Option.getD_some] at acknowledged
        have floor := above lsn persisted
        rw [old.baseline] at floor
        rcases old.confirmed with atBaseline | between
        · simp [atBaseline, floor]
        · simp only [Bool.or_eq_false_iff, decide_eq_false_iff_not, Nat.not_lt]
          exact ⟨between.1, Nat.le_trans between.2 acknowledged⟩
  unfold reconcileIngressReplaySafe
  simp only [found, IngressWorld.slot, Option.filter, Bool.and_self, if_true, Option.bind_some, proven, Bool.false_eq_true,
    if_false]
  by_cases persisted : replay.persistedLsn = none
  · exact ⟨_, if_pos persisted⟩
  · exact ⟨_, if_neg persisted⟩

end

-- In every run: a deleted header is finished and is not sent again once committed,
-- both publication calls do what they would do with every deleted header in place,
-- and the slot never contradicts the replay row.
theorem change_log_gc_safe [DecidableEq Payload] (codec : PayloadCodec Payload) (rowCodec : RowCodec Payload Row)
    (slotName : String) (wal : SourceWal) (world : IngressWorld Payload Row)
    (reached : Reachable (act codec rowCodec slotName wal)
      (fun start => ∃ server baseline, start = installed slotName server baseline) world) :
    (∀ txn ∈ world.deleted, Drained txn ∧ Covered txn ∧ (txn.status = .committed →
      (∀ other ∈ world.catalog.ingress.transactions.rows, other.identity ≠ txn.identity) ∧
        ∀ batch : IngressBatch Payload, sends wal world.slotBaselineLsn world.session batch = true →
          batch.identity world.session.generation ≠ txn.identity)) ∧
      (∀ slotGeneration, publishSourceBatch rowCodec (restoreHeaders world.catalog world.deleted) slotGeneration =
        (publishSourceBatch rowCodec world.catalog slotGeneration).map
          fun result => (restoreHeaders result.1 world.deleted, result.2)) ∧
      (∀ slotGeneration, advanceIngressPublicationFrontier (restoreAll world.catalog.ingress world.deleted) slotGeneration =
        (advanceIngressPublicationFrontier world.catalog.ingress slotGeneration).map
          fun result => (restoreAll result.1 world.deleted, result.2)) ∧
      ∃ result, reconcileIngressReplaySafe world.catalog.ingress world.slot world.session.generation = .ok result := by
  obtain ⟨replay, retained⟩ : ∃ replay, Retained codec slotName wal world replay := by
    refine reachable_invariant (fun world => ∃ replay, Retained codec slotName wal world replay) ?_ ?_ world reached
    · rintro start ⟨server, baseline, rfl⟩
      exact ⟨_, retained_installed codec slotName wal server baseline⟩
    · intro before action after invariant taken
      exact retained_act invariant taken
  have fits : ∀ txn ∈ world.deleted, world.catalog.ingress.transactions.Fits txn := fun txn member =>
    (retained.gone txn member).fits
  refine ⟨?_, ?_, ?_, slot_proves_safety retained⟩
  · intro txn member
    have gone := retained.gone txn member
    refine ⟨gone.drained, gone.covered, fun committed => ⟨gone.replaced committed, ?_⟩⟩
    intro batch sent same
    exact sends_unended sent _ (retained.ended txn (List.mem_append_right _ member) committed) same.symm
  · intro slotGeneration
    exact publish_restore_all rowCodec slotGeneration world.deleted (fun txn member => (retained.gone txn member).drained)
      retained.apart world.catalog fits
  · intro slotGeneration
    exact advance_restore_all slotGeneration world.deleted retained.apart world.catalog.ingress fits
      fun txn member => (retained.gone txn member).behind

def oneCommitWal : SourceWal where
  ending xid start := if xid = 5 ∧ start = 10 then some (.committed 20 21) else none
  nonempty := by
    intro xid start commitLsn endLsn ended
    split at ended
    · cases ended
      decide
    · cases ended

-- One transaction from its first batch to its collection, and a restart.
def collectedWorld : IngressWorld Nat Nat :=
  attempts (act numberPayload numberRow "shiba" oneCommitWal) (installed "shiba" ⟨"7", 1⟩ 3)
    [.stream (.ensureSource 1 100 64 512), .stream (.attach 1 true ⟨7, 0, 0⟩ 5),
      .deliver anySource ⟨5, 10, [insertion 11 5 100 3], none⟩,
      .deliver anySource ⟨5, 10, [insertion 12 5 100 4], some (.commit 20 21)⟩, .publish, .publish, .advanceFrontier,
      .acknowledge 21, .confirm 21, .reconcileReplaySafe, .collect (fun _ => true) 4, .restart ⟨"7", 2⟩]

theorem change_log_gc_safe_collected :
    (collectedWorld.deleted.map fun txn => (txn.ingressTxnId, txn.status, txn.eventCount)) = [(1, .committed, 2)] ∧
      collectedWorld.session.startLsn = 21 ∧
      ∃ result, reconcileIngressReplaySafe collectedWorld.catalog.ingress collectedWorld.slot
        collectedWorld.session.generation = .ok result :=
  ⟨by decide, by decide, (change_log_gc_safe numberPayload numberRow "shiba" oneCommitWal collectedWorld
    (reachable_attempts _ _ (.start _ ⟨_, _, rfl⟩))).2.2.2⟩

end Shiba.Publication
