import Shiba.Ingress.Effects
import Shiba.Publication.Source

set_option autoImplicit false

namespace Shiba.Publication

open SerialTable Shiba.Ingress Shiba.Stream

variable {Payload Row : Type}

theorem require_count_ok (rows expected : Nat) (name : String) (ok : requireCount rows expected name = .ok ()) :
    rows = expected := by
  unfold requireCount at ok
  split at ok
  · assumption
  · cases ok

theorem lock_task_cases {db : IngressCatalog Payload} {slotGeneration : Nat} {candidate : PendingTask Payload}
    {txn : IngressTransaction Payload} {task : Task} (ok : lockTask db slotGeneration candidate = .ok (txn, task)) :
    db.findTransaction candidate.header.ingressTxnId = some txn ∧ committedIn slotGeneration txn = true ∧
      txn.finalLsn = some task.finalLsn ∧
      ∃ row, (txn.publications.filter fun row =>
          namesTask candidate.task.batchOrdinal candidate.task.sourceOid row && isPending row) = [row] ∧
        task = ⟨txn.ingressTxnId, row.batchOrdinal, row.sourceOid, row.firstInputSeq, row.lastInputSeq,
          row.nextInputSeq.getD 0, task.finalLsn⟩ := by
  unfold lockTask at ok
  split at ok
  · cases ok
  · rename_i header found
    obtain ⟨same, committed⟩ := Option.filter_eq_some_iff.mp found
    split at ok
    · cases ok
    · rename_i finalLsn sealed
      simp only at ok
      split at ok
      · rename_i row only
        simp only [Except.ok.injEq, Prod.mk.injEq] at ok
        obtain ⟨rfl, rfl⟩ := ok
        exact ⟨same, committed, sealed, row, only, rfl⟩
      · cases ok

theorem advance_task_cases {db after : IngressCatalog Payload} {txn : IngressTransaction Payload} {task : Task}
    {outcome : SourcePublicationOutcome} {next : Option Nat} (ok : advanceTask db txn task outcome next = .ok after) :
    (outcome = .appended ↔ next.isSome = true) ∧
      (txn.publications.filter (atCursor task)).length = 1 ∧
      (finishes outcome = true → 0 < txn.pendingPublications) ∧
      after = db.updateTransaction txn.ingressTxnId (advanceHeader task (finishes outcome) next) (fun _ => rfl) := by
  unfold advanceTask at ok
  split at ok
  · cases ok
  · rename_i cursor
    split at ok
    · cases ok
    · rename_i counted
      split at ok
      · cases ok
      · rename_i waiting
        simp only [Except.ok.injEq] at ok
        refine ⟨?_, require_count_ok _ _ _ counted, ?_, ok.symm⟩
        · have same : decide (outcome = .appended) = next.isSome := not_not.mp cursor
          rw [← same, decide_eq_true_eq]
        · intro finished
          exact Nat.pos_of_ne_zero fun empty => waiting ⟨finished, empty⟩

theorem publish_source_batch_cases {codec : RowCodec Payload Row} {db after : SourceCatalog Payload Row}
    {slotGeneration : Nat} {publication : SourcePublication}
    (ok : publishSourceBatch codec db slotGeneration = .ok (after, publication)) :
    ∃ replay, db.ingress.activeReplay slotGeneration = some replay ∧
      ((chooseCandidate db slotGeneration = none ∧ after = db ∧ publication.chunkSeq = none ∧
          (publication.outcome = .idle ∨ publication.outcome = .blocked)) ∨
        ∃ candidate txn task next, chooseCandidate db slotGeneration = some candidate ∧
          lockTask db.ingress slotGeneration candidate = .ok (txn, task) ∧
          publishTask codec db replay txn task = .ok (after.streams, publication.outcome, publication.chunkSeq, next) ∧
          (publication.ingressTxnId = some task.ingressTxnId ∧ publication.batchOrdinal = some task.batchOrdinal ∧
            publication.sourceOid = some task.sourceOid ∧ publication.finalLsn = some task.finalLsn) ∧
          (if moves publication.outcome then advanceTask db.ingress txn task publication.outcome next
            else .ok db.ingress) = .ok after.ingress) := by
  unfold publishSourceBatch at ok
  split at ok
  · cases ok
  · split at ok
    · cases ok
    · rename_i replay active
      refine ⟨replay, active, ?_⟩
      split at ok
      · rename_i absent
        simp only [Except.ok.injEq, Prod.mk.injEq] at ok
        obtain ⟨rfl, rfl⟩ := ok
        refine .inl ⟨absent, rfl, rfl, ?_⟩
        cases hasPending db.ingress slotGeneration with
        | true => exact .inr rfl
        | false => exact .inl rfl
      · rename_i candidate chosen
        split at ok
        · cases ok
        · rename_i txn task locked
          split at ok
          · cases ok
          · rename_i streams outcome chunkSeq next published
            split at ok
            · cases ok
            · rename_i ingress advanced
              simp only [Except.ok.injEq, Prod.mk.injEq] at ok
              obtain ⟨rfl, rfl⟩ := ok
              exact .inr ⟨candidate, txn, task, next, chosen, locked, published, ⟨rfl, rfl, rfl, rfl⟩, advanced⟩

theorem publish_task_cases {codec : RowCodec Payload Row} {db : SourceCatalog Payload Row} {replay : ReplayState}
    {txn : IngressTransaction Payload} {task : Task} {streams : Table (EffectStream Row) EffectStream.streamId}
    {outcome : SourcePublicationOutcome} {chunkSeq next : Option Nat}
    (ok : publishTask codec db replay txn task = .ok (streams, outcome, chunkSeq, next)) :
    (outcome = .discarded ∧ chunkSeq = none ∧ next = none ∧ streams = db.streams ∧
        ∀ stream, sourceStream db.streams replay.slotGeneration task.sourceOid = some stream →
          hasEligibleConsumer stream task.finalLsn = false) ∨
      (outcome = .blocked ∧ chunkSeq = none ∧ next = none ∧ streams = db.streams) ∨
      ∃ stream after, sourceStream db.streams replay.slotGeneration task.sourceOid = some stream ∧
        appendTypedPrefix codec txn task stream replay.publishedLsn = .ok (after, outcome, chunkSeq, next) ∧
        streams = storeStream db.streams stream.streamId after := by
  unfold publishTask at ok
  cases found : sourceStream db.streams replay.slotGeneration task.sourceOid with
  | none =>
      simp only [found, Except.ok.injEq, Prod.mk.injEq] at ok
      exact .inl ⟨ok.2.1.symm, ok.2.2.1.symm, ok.2.2.2.symm, ok.1.symm, fun stream wrong => by cases wrong⟩
  | some stream =>
      simp only [found] at ok
      split at ok
      · rename_i ineligible
        simp only [Except.ok.injEq, Prod.mk.injEq] at ok
        refine .inl ⟨ok.2.1.symm, ok.2.2.1.symm, ok.2.2.2.symm, ok.1.symm, ?_⟩
        intro other same
        cases same
        simpa using ineligible
      · split at ok
        · simp only [Except.ok.injEq, Prod.mk.injEq] at ok
          exact .inr (.inl ⟨ok.2.1.symm, ok.2.2.1.symm, ok.2.2.2.symm, ok.1.symm⟩)
        · split at ok
          · cases ok
          · rename_i after appendOutcome appendSeq appendNext appended
            simp only [Except.ok.injEq, Prod.mk.injEq] at ok
            obtain ⟨rfl, rfl, rfl, rfl⟩ := ok
            exact .inr (.inr ⟨stream, after, rfl, appended, rfl⟩)

end Shiba.Publication
