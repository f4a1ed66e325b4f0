import Shiba.Publication.Delivery
import Shiba.Publication.Restore
import Shiba.Publication.Frontier

set_option autoImplicit false

namespace Shiba.Publication

open SerialTable Transition Shiba.Ingress Shiba.Stream

variable {Payload Row : Type}

-- Every event of the header has a task of its source whose range holds it.
def Covered (txn : IngressTransaction Payload) : Prop :=
  ∀ row ∈ txn.changeLog, ∃ task ∈ txn.publications, task.sourceOid = row.sourceOid ∧
    task.firstInputSeq ≤ row.inputSeq ∧ row.inputSeq ≤ task.lastInputSeq

-- Where a row of the next state comes from: an old one with its key and identity,
-- or a fresh one. Only an identity of `seals` becomes committed.
structure Continues (seals : ReplayIdentity → Prop) (txn moved : IngressTransaction Payload) : Prop where
  key : txn.ingressTxnId = moved.ingressTxnId
  identity : txn.identity = moved.identity
  covered : Covered txn → Covered moved
  committed : moved.status = .committed → txn.status = .committed ∨ seals moved.identity

structure Opens (opens seals : ReplayIdentity → Prop) (db : IngressCatalog Payload) (moved : IngressTransaction Payload) :
    Prop where
  opened : opens moved.identity
  fresh : db.transactions.next ≤ moved.ingressTxnId
  covered : Covered moved
  committed : moved.status = .committed → seals moved.identity

-- The unique index on the replay identity.
def DistinctIdentities (db : IngressCatalog Payload) : Prop :=
  ∀ a ∈ db.transactions.rows, ∀ b ∈ db.transactions.rows, a.identity = b.identity → a = b

structure RowsKeep (opens seals : ReplayIdentity → Prop) (db after : IngressCatalog Payload) : Prop where
  next : db.transactions.next ≤ after.transactions.next
  distinct : DistinctIdentities db → DistinctIdentities after
  rows : ∀ moved ∈ after.transactions.rows,
    (∃ txn ∈ db.transactions.rows, Continues seals txn moved) ∨ Opens opens seals db moved

section Rows

variable (opens seals : ReplayIdentity → Prop)

theorem continues_refl (txn : IngressTransaction Payload) : Continues seals txn txn :=
  ⟨rfl, rfl, id, fun committed => .inl committed⟩

section

variable (db after : IngressCatalog Payload)

theorem rows_keep_refl : RowsKeep opens seals db db :=
  ⟨Nat.le_refl _, id, fun moved member => .inl ⟨moved, member, continues_refl seals moved⟩⟩

-- When no row is new, the keys keep the identities apart.
theorem rows_keep_old (next : db.transactions.next ≤ after.transactions.next)
    (old : ∀ moved ∈ after.transactions.rows, ∃ txn ∈ db.transactions.rows, Continues seals txn moved) :
    RowsKeep opens seals db after := by
  refine ⟨next, ?_, fun moved member => .inl (old moved member)⟩
  intro distinct a aMember b bMember same
  obtain ⟨txn, member, aFrom⟩ := old a aMember
  obtain ⟨other, otherMember, bFrom⟩ := old b bMember
  have equal := distinct txn member other otherMember (aFrom.identity.trans (same.trans bFrom.identity.symm))
  apply after.transactions.row_unique a b aMember bMember
  rw [← aFrom.key, ← bFrom.key, equal]

theorem rows_keep_congr (other : IngressCatalog Payload) (keeps : RowsKeep opens seals db after)
    (same : other.transactions = after.transactions) : RowsKeep opens seals db other := by
  obtain ⟨next, distinct, rows⟩ := keeps
  unfold DistinctIdentities at distinct
  rw [← same] at next distinct rows
  exact ⟨next, distinct, rows⟩

theorem rows_keep_same (same : after.transactions = db.transactions) :
    RowsKeep opens seals db after :=
  rows_keep_congr opens seals db db after (rows_keep_refl opens seals db) same

theorem rows_keep_trans (middle after : IngressCatalog Payload) (first : RowsKeep opens seals db middle)
    (second : RowsKeep opens seals middle after) : RowsKeep opens seals db after := by
  refine ⟨Nat.le_trans first.next second.next, fun distinct => second.distinct (first.distinct distinct), ?_⟩
  intro moved member
  rcases second.rows moved member with ⟨txn, inMiddle, later⟩ | new
  · rcases first.rows txn inMiddle with ⟨before, inDb, earlier⟩ | new
    · refine .inl ⟨before, inDb, earlier.key.trans later.key, earlier.identity.trans later.identity,
        fun known => later.covered (earlier.covered known), ?_⟩
      intro committed
      rcases later.committed committed with already | sealed
      · rw [← later.identity]
        exact earlier.committed already
      · exact .inr sealed
    · refine .inr ⟨later.identity ▸ new.opened, later.key ▸ new.fresh, later.covered new.covered, ?_⟩
      intro committed
      rcases later.committed committed with already | sealed
      · exact later.identity ▸ new.committed already
      · exact sealed
  · exact .inr ⟨new.opened, Nat.le_trans first.next new.fresh, new.covered, new.committed⟩

theorem rows_keep_update (ingressTxnId : Nat) (change : IngressTransaction Payload → IngressTransaction Payload)
    (keepsId : ∀ txn, (change txn).ingressTxnId = txn.ingressTxnId) (txn : IngressTransaction Payload)
    (found : db.findTransaction ingressTxnId = some txn) (continues : Continues seals txn (change txn)) :
    RowsKeep opens seals db (db.updateTransaction ingressTxnId change keepsId) := by
  refine rows_keep_old opens seals db _ (Nat.le_refl db.transactions.next) ?_
  intro moved member
  rcases (db.mem_update_transaction _ _ keepsId txn moved found).mp member with ⟨old, _⟩ | rfl
  · exact ⟨moved, old, continues_refl seals moved⟩
  · exact ⟨txn, (db.transactions.mem_of_find _ _ found).1, continues⟩

theorem rows_keep_open (identity : ReplayIdentity) (given : opens identity) (absent : db.identified identity = none) :
    RowsKeep opens seals db (openTransaction db identity) := by
  have other := db.identified_none identity absent
  refine ⟨Nat.le_succ _, ?_, ?_⟩
  · intro distinct a aMember b bMember same
    rcases (mem_open_transaction db identity a).mp aMember with aOld | rfl
    · rcases (mem_open_transaction db identity b).mp bMember with bOld | rfl
      · exact distinct a aOld b bOld same
      · exact absurd same (other a aOld)
    · rcases (mem_open_transaction db identity b).mp bMember with bOld | rfl
      · exact absurd same.symm (other b bOld)
      · rfl
  intro moved member
  rcases (mem_open_transaction db identity moved).mp member with old | rfl
  · exact .inl ⟨moved, old, continues_refl seals moved⟩
  · refine .inr ⟨given, Nat.le_refl _, ?_, ?_⟩
    · intro row inLog
      cases inLog
    · intro committed
      cases committed

theorem rows_keep_lost (server : ServerFacts) (slotGeneration : Nat) :
    RowsKeep opens seals db (abortLost db server slotGeneration) := by
  refine rows_keep_old opens seals db _ (Nat.le_refl db.transactions.next) ?_
  intro moved member
  obtain ⟨txn, old, rfl⟩ := (mem_abort_lost db server slotGeneration moved).mp member
  refine ⟨txn, old, ?_⟩
  cases isOpenIn slotGeneration txn with
  | true =>
      refine ⟨rfl, rfl, fun covered => covered, ?_⟩
      intro committed
      cases committed
  | false => exact continues_refl seals txn

end

theorem rows_keep_gc {db after : IngressCatalog Payload} {due : Nat → Bool} {maxTransactions count : Nat}
    (ok : gcChangeLog db due maxTransactions = .ok (after, count)) : RowsKeep opens seals db after := by
  obtain ⟨_, next, rows⟩ := gc_cases db after due maxTransactions count ok
  apply rows_keep_old opens seals db after (Nat.le_of_eq next.symm)
  intro moved member
  exact ⟨moved, ((rows moved).mp member).1, continues_refl seals moved⟩

end Rows

section

variable (seals : ReplayIdentity → Prop) (db : IngressCatalog Payload) (txn moved : IngressTransaction Payload)
  (ends : Lsn → Prop) (replay : ReplayState)

theorem covered_admitted (covered : Covered txn) (allocation : Allocation) (rows : List (ChangeRow Payload))
    (first : allocation.firstInputSeq = txn.eventCount + 1) (last : allocation.lastInputSeq = txn.eventCount + rows.length)
    (numbered : rows.map ChangeRow.inputSeq = List.range' (txn.eventCount + 1) rows.length) :
    Covered (admitRows allocation rows (publicationTasks allocation rows) txn) := by
  intro row member
  rcases List.mem_append.mp member with old | new
  · obtain ⟨task, taskMember, found⟩ := covered row old
    exact ⟨task, List.mem_append_left _ taskMember, found⟩
  · have named : row.sourceOid ∈ sourceOids (rowEvents rows) :=
      (source_oids_mem _ _).mpr ⟨row.toIngressEvent, List.mem_map.mpr ⟨row, new, rfl⟩, rfl⟩
    have inRange : row.inputSeq ∈ List.range' (txn.eventCount + 1) rows.length :=
      numbered ▸ List.mem_map.mpr ⟨row, new, rfl⟩
    rw [List.mem_range'_1] at inRange
    refine ⟨_, List.mem_append_right _ (List.mem_map.mpr ⟨row.sourceOid, named, rfl⟩), rfl, ?_, ?_⟩
    · rw [first]
      exact inRange.1
    · rw [last]
      change row.inputSeq ≤ txn.eventCount + rows.length
      omega

theorem step_continues (stepped : HeaderStep db txn moved) (sealed : moved.status = .committed → seals txn.identity) :
    Continues seals txn moved := by
  cases stepped with
  | admitted allocation rows first last numbered =>
      refine ⟨rfl, rfl, fun covered => covered_admitted txn covered allocation rows first last numbered, ?_⟩
      intro committed
      exact .inr (sealed committed)
  | committed commitLsn endLsn fresh | aborted abortLsn => exact ⟨rfl, rfl, fun covered => covered, fun committed => .inr (sealed committed)⟩
  | subtransaction sourceSubxid =>
      unfold recordSubtransactionAbort
      split
      · exact continues_refl seals txn
      · exact ⟨rfl, rfl, fun covered => covered, fun committed => .inl committed⟩

theorem advanced_continues (task : Task) (finished : Bool) (next : Option Nat) (txn : IngressTransaction Payload) :
    Continues seals txn (advanceHeader task finished next txn) := by
  refine ⟨rfl, rfl, ?_, fun committed => .inl committed⟩
  intro covered row member
  obtain ⟨publication, inTasks, source, low, high⟩ := covered row member
  refine ⟨moveCursor task next publication, List.mem_map.mpr ⟨publication, inTasks, rfl⟩, ?_⟩
  unfold moveCursor
  split
  · exact ⟨source, low, high⟩
  · exact ⟨source, low, high⟩

theorem rows_keep_identity (opens seals : ReplayIdentity → Prop) (db after : IngressCatalog Payload)
    (keeps : RowsKeep opens seals db after) (txn moved : IngressTransaction Payload) (old : txn ∈ db.transactions.rows)
    (new : moved ∈ after.transactions.rows) (same : txn.ingressTxnId = moved.ingressTxnId) :
    txn.identity = moved.identity := by
  rcases keeps.rows moved new with ⟨before, member, continues⟩ | opened
  · rw [db.transactions.row_unique txn before old member (same.trans continues.key.symm)]
    exact continues.identity
  · have known := db.transactions.below txn old
    have fresh := opened.fresh
    omega

-- The replay row of the only generation.
def Only (db : IngressCatalog Payload) (replay : ReplayState) : Prop := db.replayState.rows = [replay]

def AboveBaseline (replay : ReplayState) : Prop := ∀ lsn, replay.persistedLsn = some lsn → replay.slotBaselineLsn ≤ lsn

-- What no step takes back from a replay row; `ends` are the LSNs it may persist.
structure Later (ends : Lsn → Prop) (before after : ReplayState) : Prop where
  generation : after.slotGeneration = before.slotGeneration
  state : after.state = before.state
  slotName : after.slotName = before.slotName
  baseline : after.slotBaselineLsn = before.slotBaselineLsn
  persisted : before.persistedLsn.getD 0 ≤ after.persistedLsn.getD 0
  above : (∀ lsn, ends lsn → before.slotBaselineLsn ≤ lsn) → AboveBaseline before → AboveBaseline after
  published : ∀ lsn, reachedBy before.publishedLsn lsn = true → reachedBy after.publishedLsn lsn = true

theorem later_refl : Later ends replay replay :=
  ⟨rfl, rfl, rfl, rfl, Nat.le_refl _, fun _ above => above, fun _ reached => reached⟩

theorem later_trans (a b c : ReplayState) (ab : Later ends a b) (bc : Later ends b c) :
    Later ends a c := by
  refine ⟨bc.generation.trans ab.generation, bc.state.trans ab.state, bc.slotName.trans ab.slotName,
    bc.baseline.trans ab.baseline, Nat.le_trans ab.persisted bc.persisted, ?_,
    fun lsn reached => bc.published lsn (ab.published lsn reached)⟩
  intro within above
  apply bc.above
  · rw [ab.baseline]
    exact within
  · exact ab.above within above

structure Kept (opens seals : ReplayIdentity → Prop) (ends : Lsn → Prop) (db after : IngressCatalog Payload)
    (replay moved : ReplayState) : Prop where
  rows : RowsKeep opens seals db after
  only : Only after moved
  later : Later ends replay moved

theorem only_active (other : ReplayState) (only : Only db replay) (slotGeneration : Nat)
    (active : db.activeReplay slotGeneration = some other) : other = replay ∧ replay.slotGeneration = slotGeneration := by
  obtain ⟨member, named, _⟩ := db.active_replay_some _ _ active
  rw [only] at member
  obtain rfl := List.mem_singleton.mp member
  exact ⟨rfl, named⟩

theorem active_only {db : IngressCatalog Payload} {replay : ReplayState} (only : Only db replay)
    (active : replay.state = .active) : db.activeReplay replay.slotGeneration = some replay := by
  have found : db.replayState.find? replay.slotGeneration = some replay := by
    rw [Table.find?, only]
    simp
  simp [IngressCatalog.activeReplay, found, active]

theorem only_update (only : Only db replay) (change : ReplayState → ReplayState)
    (keeps : ∀ row, (change row).slotGeneration = row.slotGeneration) :
    Only (db.updateReplay replay.slotGeneration change keeps) (change replay) := by
  change (db.replayState.rows.map fun row => if decide (row.slotGeneration = replay.slotGeneration) then change row else row) = _
  rw [only]
  simp

theorem persist_later (endLsn : Lsn) (bytes : Nat) (ending : ends endLsn) :
    Later ends replay (persistThrough endLsn (releasePayload bytes replay)) := by
  have grows : replay.persistedLsn.getD 0 ≤ greatestLsn replay.persistedLsn endLsn := by
    cases replay.persistedLsn with
    | none => exact Nat.zero_le _
    | some lsn => exact Nat.le_max_left lsn endLsn
  refine ⟨rfl, rfl, rfl, rfl, grows, ?_, fun _ reached => reached⟩
  intro within _ lsn persisted
  cases persisted
  exact Nat.le_trans (within endLsn ending) (greatest_lsn_ge _ _)

end

section Calls

variable (opens seals : ReplayIdentity → Prop) (ends : Lsn → Prop) {db after : IngressCatalog Payload} {replay : ReplayState}
  (only : Only db replay)

include only

-- A call that locks a header changes it and its generation's replay row.
theorem locked_kept (ingressTxnId : Nat) (locked : ReplayState) (txn : IngressTransaction Payload)
    (lock : lockTransaction db ingressTxnId = .ok (locked, txn)) (middle : IngressCatalog Payload)
    (rows : RowsKeep opens seals db middle) (same : middle.replayState = db.replayState)
    (change : ReplayState → ReplayState) (keeps : ∀ row, (change row).slotGeneration = row.slotGeneration)
    (later : Later ends replay (change replay)) :
    Kept opens seals ends db (middle.updateReplay txn.slotGeneration change keeps) replay (change replay) := by
  obtain ⟨_, named⟩ := only_active db replay locked only txn.slotGeneration (lock_transaction_ok lock).2
  have onlyMiddle : Only middle replay := by
    rw [Only, same]
    exact only
  refine ⟨rows_keep_congr _ _ _ _ _ rows rfl, ?_, later⟩
  rw [← named]
  exact only_update middle replay onlyMiddle change keeps

theorem claim_kept (identity : ReplayIdentity) (row : ClaimedTransaction) (given : opens identity)
    (ok : claimIngressTransaction db identity = .ok (after, row)) :
    Kept opens seals ends db after replay replay ∧
      ∃ txn ∈ after.transactions.rows, txn.ingressTxnId = row.ingressTxnId ∧ txn.identity = identity := by
  obtain ⟨_, _, ⟨txn, found, rfl, rfl⟩ | ⟨absent, _, rfl, rfl⟩⟩ := claim_cases db after identity row ok
  · obtain ⟨member, named⟩ := after.identified_some identity txn found
    exact ⟨⟨rows_keep_refl _ _ _, only, later_refl _ _⟩, txn, member, rfl, named⟩
  · refine ⟨⟨rows_keep_open opens seals db identity given absent, only, later_refl _ _⟩, freshTransaction identity _, ?_, rfl, rfl⟩
    exact (mem_open_transaction db identity _).mpr (.inr rfl)

theorem admit_kept [DecidableEq Payload] {codec : PayloadCodec Payload} {settings : AdmissionSettings Payload}
    {ingressTxnId : Nat} {events : List (IngressEvent Payload)} {facts : AdmissionFacts}
    (ok : admitEvents codec settings db ingressTxnId events = .ok (after, facts)) :
    ∃ moved, Kept opens seals ends db after replay moved := by
  obtain ⟨locked, txn, lock, _, _, ⟨_, rfl⟩ | ⟨opened, _, allocation, allocated, _, _, count, _, rfl⟩⟩ :=
    admit_events_cases ok
  · exact ⟨replay, rows_keep_refl _ _ _, only, later_refl _ _⟩
  · have found := (lock_transaction_ok lock).1
    have named := (db.transactions.mem_of_find _ _ found).2
    subst named
    have isAllocation := allocate_ok allocated
    have first : allocation.firstInputSeq = txn.eventCount + 1 := congrArg Allocation.firstInputSeq isAllocation
    have last := congrArg Allocation.lastInputSeq isAllocation
    have continues : Continues seals txn
        (admitRows allocation (allocatedRows allocation (classifyReplay codec txn events) events)
          (publicationTasks allocation (allocatedRows allocation (classifyReplay codec txn events) events)) txn) := by
      refine step_continues seals db txn _ (.admitted allocation _ first (last.trans (by rw [count])) ?_) ?_
      · rw [← first]
        exact (number_rows_seqs _ _).trans (by rw [allocatedRows, number_rows_length])
      · intro committed
        simp [admitRows, opened] at committed
    exact ⟨_, locked_kept opens seals ends only _ locked txn lock _ (rows_keep_update opens seals db _
        (admitRows allocation (allocatedRows allocation (classifyReplay codec txn events) events)
          (publicationTasks allocation (allocatedRows allocation (classifyReplay codec txn events) events)))
        (fun _ => rfl) txn found continues) rfl (stagePayload (classifyReplay codec txn events).batchPayloadBytes)
      (fun _ => rfl) ⟨rfl, rfl, rfl, rfl, Nat.le_refl _, fun _ above => above, fun _ reached => reached⟩⟩

theorem finish_kept {ingressTxnId : Nat} {boundary : Option IngressBoundary}
    (persists : ∀ commitLsn endLsn, boundary = some (.commit commitLsn endLsn) →
      ends endLsn ∧ ∀ txn ∈ db.transactions.rows, txn.ingressTxnId = ingressTxnId → seals txn.identity)
    (ok : finishBatch db ingressTxnId boundary = .ok after) :
    ∃ moved, Kept opens seals ends db after replay moved ∧
      ∀ commitLsn endLsn, boundary = some (.commit commitLsn endLsn) → endLsn ≤ moved.persistedLsn.getD 0 := by
  cases boundary with
  | none =>
      cases ok
      exact ⟨replay, ⟨rows_keep_refl _ _ _, only, later_refl _ _⟩, fun _ _ wrong => by cases wrong⟩
  | some boundary =>
      cases boundary with
      | commit commitLsn endLsn =>
          obtain ⟨ending, sealed⟩ := persists commitLsn endLsn rfl
          obtain ⟨facts, made⟩ := map_fst_ok ok
          have covers : ∀ bytes, endLsn ≤ (persistThrough endLsn (releasePayload bytes replay)).persistedLsn.getD 0 :=
            fun _ => greatest_lsn_ge _ _
          obtain ⟨locked, other, lock, _, ⟨_, _, _, rfl⟩ | ⟨opened, fresh, _, rfl⟩⟩ := commit_cases made
          · refine ⟨_, locked_kept opens seals ends only _ locked other lock db (rows_keep_refl _ _ _) rfl
              (persistThrough endLsn) (fun _ => rfl) (persist_later ends replay endLsn 0 ending), ?_⟩
            intro _ _ same
            cases same
            exact covers 0
          · have found := (lock_transaction_ok lock).1
            obtain ⟨member, named⟩ := db.transactions.mem_of_find _ _ found
            refine ⟨_, locked_kept opens seals ends only _ locked other lock _
              (rows_keep_update opens seals db ingressTxnId (sealCommitted commitLsn endLsn) (fun _ => rfl) other found
                (step_continues seals db other _ (.committed commitLsn endLsn fresh) fun _ => sealed other member named)) rfl
              (fun row => persistThrough endLsn (releasePayload other.payloadBytes row)) (fun _ => rfl)
              (persist_later ends replay endLsn other.payloadBytes ending), ?_⟩
            intro _ _ same
            cases same
            exact covers _
      | abortTransaction abortLsn =>
          obtain ⟨finalized, made⟩ := map_fst_ok ok
          obtain ⟨locked, other, lock, ⟨_, _, rfl⟩ | ⟨opened, _, rfl⟩⟩ := abort_cases made
          · exact ⟨replay, ⟨rows_keep_refl _ _ _, only, later_refl _ _⟩, fun _ _ wrong => by cases wrong⟩
          · refine ⟨_, locked_kept opens seals ends only _ locked other lock _
              (rows_keep_update opens seals db ingressTxnId (sealAborted abortLsn) (fun _ => rfl) other
                (lock_transaction_ok lock).1
                (step_continues seals db other _ (.aborted abortLsn) fun wrong => by cases wrong)) rfl
              (releasePayload other.payloadBytes) (fun _ => rfl)
              ⟨rfl, rfl, rfl, rfl, Nat.le_refl _, fun _ above => above, fun _ reached => reached⟩, ?_⟩
            intro _ _ wrong
            cases wrong
      | abortSubtransaction sourceSubxid =>
          obtain ⟨recorded, made⟩ := map_fst_ok ok
          obtain ⟨locked, other, lock, opened, rfl⟩ :=
            abort_subtransaction_cases db after ingressTxnId sourceSubxid recorded made
          refine ⟨replay, ⟨rows_keep_update opens seals db ingressTxnId _ (record_subtransaction_id sourceSubxid) other
            (lock_transaction_ok lock).1 (step_continues seals db other _ (.subtransaction sourceSubxid) ?_), only,
            later_refl _ _⟩, fun _ _ wrong => by cases wrong⟩
          intro committed
          rw [(record_subtransaction_frame sourceSubxid other).2.1, opened] at committed
          cases committed

-- The calls that move only the replay row, and only its other watermarks.
theorem replay_kept (change : ReplayState → ReplayState) (keeps : ∀ row, (change row).slotGeneration = row.slotGeneration)
    (slotGeneration : Nat) (named : replay.slotGeneration = slotGeneration) (later : Later ends replay (change replay)) :
    Kept opens seals ends db (db.updateReplay slotGeneration change keeps) replay (change replay) := by
  subst named
  exact ⟨rows_keep_same _ _ _ _ rfl, only_update db replay only change keeps, later⟩

theorem advance_kept (slotGeneration : Nat) (lsn : Option Lsn)
    (ok : advanceIngressPublicationFrontier db slotGeneration = .ok (after, lsn)) :
    ∃ moved, Kept opens seals ends db after replay moved := by
  obtain ⟨other, active, ⟨_, rfl⟩ | ⟨target, chosen, rfl⟩⟩ := advance_frontier_cases ok
  · exact ⟨replay, rows_keep_refl _ _ _, only, later_refl _ _⟩
  · obtain ⟨rfl, named⟩ := only_active db replay other only slotGeneration active
    refine ⟨_, replay_kept opens seals ends only (publishThrough target) (fun _ => rfl) slotGeneration named
      ⟨rfl, rfl, rfl, rfl, Nat.le_refl _, fun _ above => above, ?_⟩⟩
    obtain ⟨_, _, _, _, _, ahead⟩ := advance_target_some chosen
    intro earlier reached
    cases published : other.publishedLsn with
    | none => simp [published] at reached
    | some current =>
        rw [published] at ahead reached
        simp only [reached_by_some, decide_eq_true_eq, decide_eq_false_iff_not] at ahead reached
        apply decide_eq_true
        exact Nat.le_trans reached (Nat.le_of_lt (Nat.lt_of_not_le ahead))

theorem feedback_kept (slotGeneration : Nat) (lsn : Lsn) (facts : FeedbackFacts) (named : replay.slotGeneration = slotGeneration)
    (ok : recordIngressFeedback db slotGeneration lsn = .ok (after, facts)) :
    ∃ moved, Kept opens seals ends db after replay moved := by
  rcases record_feedback_cases ok with rfl | rfl
  · exact ⟨replay, rows_keep_refl _ _ _, only, later_refl _ _⟩
  · exact ⟨_, replay_kept opens seals ends only (confirmThrough lsn) (fun _ => rfl) slotGeneration named
      ⟨rfl, rfl, rfl, rfl, Nat.le_refl _, fun _ above => above, fun _ reached => reached⟩⟩

section

variable (server : ServerFacts) (slot : Option LogicalSlot)

theorem safe_kept (slotGeneration : Nat) (safe : Option Lsn) (named : replay.slotGeneration = slotGeneration)
    (ok : reconcileIngressReplaySafe db slot slotGeneration = .ok (after, safe)) :
    ∃ moved, Kept opens seals ends db after replay moved := by
  rcases reconcile_safe_cases ok with rfl | ⟨actual, rfl⟩
  · exact ⟨replay, rows_keep_refl _ _ _, only, later_refl _ _⟩
  · exact ⟨_, replay_kept opens seals ends only (proveSafe actual) (fun _ => rfl) slotGeneration named
      ⟨rfl, rfl, rfl, rfl, Nat.le_refl _, fun _ above => above, fun _ reached => reached⟩⟩

theorem gc_kept {due : Nat → Bool} {maxTransactions count : Nat} (ok : gcChangeLog db due maxTransactions = .ok (after, count)) :
    Kept opens seals ends db after replay replay := by
  refine ⟨rows_keep_gc opens seals ok, ?_, later_refl _ _⟩
  rw [Only, (gc_cases db after due maxTransactions count ok).1]
  exact only

theorem ensure_kept (slotName : String) (generation : Nat) (active : replay.state = .active)
    (named : replay.slotName = slotName)
    (ok : ensureIngressGeneration db server slot slotName false = .ok (after, generation)) :
    after = db ∧ generation = replay.slotGeneration := by
  have found : db.replayState.rows.find? (fun row => row.slotName = slotName ∧ row.state = .active) = some replay := by
    rw [only]
    simp [named, active]
  unfold ensureIngressGeneration at ok
  rw [found] at ok
  split at ok
  · cases ok
  · split at ok
    · cases ok
    · simp only [Bool.false_eq_true, if_false] at ok
      split at ok
      · cases ok
      · cases ok
        exact ⟨rfl, rfl⟩

theorem restart_kept (slotGeneration count : Nat)
    (ok : reconcilePostmasterRestart db server slotGeneration = .ok (after, count)) :
    ∃ moved, Kept opens seals ends db after replay moved := by
  obtain ⟨other, active, ⟨_, rfl⟩ | ⟨_, rfl⟩⟩ := reconcile_cases ok
  · exact ⟨replay, rows_keep_refl _ _ _, only, later_refl _ _⟩
  · obtain ⟨rfl, named⟩ := only_active db replay other only slotGeneration active
    subst named
    exact ⟨restartEpoch server other, rows_keep_lost opens seals db server _,
      only_update db other only (restartEpoch server) (fun _ => rfl),
      rfl, rfl, rfl, rfl, Nat.le_refl _, fun _ above => above, fun _ reached => reached⟩

end

theorem bootstrap_kept {server : ServerFacts} {slot : Option LogicalSlot} {slotName : String} {session : Session}
    (active : replay.state = .active) (named : replay.slotName = slotName)
    (ok : bootstrapIngress db server slot slotName = .ok (after, session)) :
    ∃ moved, Kept opens seals ends db after replay moved ∧
      session = ⟨moved.slotGeneration, moved.persistedLsn.getD 0, moved.persistedLsn.getD 0, []⟩ := by
  unfold bootstrapIngress at ok
  obtain ⟨⟨ensured, generation⟩, ensure, ok⟩ := bind_ok_iff.mp ok
  obtain ⟨⟨reconciled, count⟩, reconcile, ok⟩ := bind_ok_iff.mp ok
  obtain ⟨rfl, rfl⟩ := ensure_kept only server slot slotName generation active named ensure
  obtain ⟨moved, kept⟩ := restart_kept opens seals ends only server _ count reconcile
  have found := active_only kept.only (kept.later.state.trans active)
  rw [kept.later.generation] at found
  simp only [found, Except.ok.injEq, Prod.mk.injEq] at ok
  obtain ⟨rfl, rfl⟩ := ok
  exact ⟨moved, kept, by rw [kept.later.generation]⟩

end Calls

theorem publish_kept (opens seals : ReplayIdentity → Prop) (ends : Lsn → Prop) {rowCodec : RowCodec Payload Row}
    {db after : SourceCatalog Payload Row} {replay : ReplayState} (only : Only db.ingress replay) {slotGeneration : Nat}
    {publication : SourcePublication} (ok : publishSourceBatch rowCodec db slotGeneration = .ok (after, publication)) :
    Kept opens seals ends db.ingress after.ingress replay replay := by
  obtain ⟨_, _, ⟨_, rfl, _⟩ | ⟨candidate, txn, task, next, _, locked, _, _, advanced⟩⟩ := publish_source_batch_cases ok
  · exact ⟨rows_keep_refl _ _ _, only, later_refl _ _⟩
  · split at advanced
    · obtain ⟨_, _, _, same⟩ := advance_task_cases advanced
      obtain ⟨found, _⟩ := lock_task_cases locked
      have named := (db.ingress.transactions.mem_of_find _ _ found).2
      rw [← named] at found
      rw [same]
      exact ⟨rows_keep_update opens seals db.ingress txn.ingressTxnId
        (advanceHeader task (finishes publication.outcome) next) (fun _ => rfl) txn found
        (advanced_continues seals task _ next txn), only, later_refl _ _⟩
    · rw [← Except.ok.inj advanced]
      exact ⟨rows_keep_refl _ _ _, only, later_refl _ _⟩

end Shiba.Publication
