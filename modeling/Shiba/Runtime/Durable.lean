import Shiba.Runtime.Feedback
import Shiba.Publication.Accounting

set_option autoImplicit false

namespace Shiba.Runtime

open SerialTable Shiba.Ingress Shiba.Publication

variable {Payload Row : Type}

-- The generation is the active one and has persisted at least this much.
def Durable (db : IngressCatalog Payload) (generation : Nat) (lsn : Lsn) : Prop :=
  ∃ replay, db.activeReplay generation = some replay ∧ lsn ≤ replay.persistedLsn.getD 0

-- No call the Runtime or another backend makes meanwhile takes that back.
def Rises (db after : IngressCatalog Payload) (generation : Nat) : Prop :=
  ∀ lsn, Durable db generation lsn → Durable after generation lsn

def NoLower (change : ReplayState → ReplayState) : Prop :=
  ∀ replay, (change replay).state = replay.state ∧ replay.persistedLsn.getD 0 ≤ (change replay).persistedLsn.getD 0

theorem durable_lsn (db : IngressCatalog Payload) (generation : Nat) (lsn : Lsn) (durable : Durable db generation lsn) :
    lsn ≤ durableLsn db generation := by
  obtain ⟨replay, active, reached⟩ := durable
  simpa only [durableLsn, active, Option.bind_some] using reached

theorem durable_below (db : IngressCatalog Payload) (generation : Nat) (lsn lower : Lsn) (below : lower ≤ lsn)
    (durable : Durable db generation lsn) : Durable db generation lower := by
  obtain ⟨replay, active, reached⟩ := durable
  exact ⟨replay, active, Nat.le_trans below reached⟩

section Moves

variable {db : IngressCatalog Payload} (after : IngressCatalog Payload) (generation : Nat)

theorem rises_refl : Rises db db generation := fun _ durable => durable

theorem rises_trans (next : IngressCatalog Payload) (first : Rises db after generation) (second : Rises after next generation) :
    Rises db next generation := fun lsn durable => second lsn (first lsn durable)

theorem rises_same (same : after.replayState = db.replayState) : Rises db after generation := by
  intro lsn durable
  unfold Durable IngressCatalog.activeReplay at durable ⊢
  rw [same]
  exact durable

theorem active_updated (slotGeneration : Nat) {change : ReplayState → ReplayState}
    (keeps : ∀ replay, (change replay).slotGeneration = replay.slotGeneration) (noLower : NoLower change)
    {replay : ReplayState} (active : db.activeReplay generation = some replay) :
    (db.updateReplay slotGeneration change keeps).activeReplay generation =
      some (if generation = slotGeneration then change replay else replay) := by
  obtain ⟨found, state⟩ := Option.filter_eq_some_iff.mp active
  unfold IngressCatalog.activeReplay IngressCatalog.updateReplay
  rw [Table.find_update]
  by_cases here : generation = slotGeneration
  · subst here
    rw [if_pos rfl, if_pos rfl, found, Option.map_some]
    apply Option.filter_eq_some_iff.mpr
    exact ⟨rfl, by rw [(noLower replay).1]; exact state⟩
  · rw [if_neg here, if_neg here]
    exact active

theorem rises_update (slotGeneration : Nat) (change : ReplayState → ReplayState)
    (keeps : ∀ replay, (change replay).slotGeneration = replay.slotGeneration) (noLower : NoLower change) :
    Rises db (db.updateReplay slotGeneration change keeps) generation := by
  intro lsn durable
  obtain ⟨replay, active, reached⟩ := durable
  refine ⟨_, active_updated generation slotGeneration keeps noLower active, ?_⟩
  by_cases here : generation = slotGeneration
  · rw [if_pos here]
    exact Nat.le_trans reached (noLower replay).2
  · rw [if_neg here]
    exact reached

end Moves

theorem persist_no_lower (endLsn : Lsn) : NoLower (persistThrough endLsn) := by
  intro replay
  refine ⟨rfl, ?_⟩
  change _ ≤ greatestLsn replay.persistedLsn endLsn
  cases replay.persistedLsn with
  | none => exact Nat.zero_le _
  | some lsn => exact Nat.le_max_left _ _

theorem release_no_lower (bytes : Nat) : NoLower (releasePayload bytes) := fun _ => ⟨rfl, Nat.le_refl _⟩

theorem seal_no_lower (endLsn : Lsn) (bytes : Nat) : NoLower fun replay => persistThrough endLsn (releasePayload bytes replay) :=
  fun replay => persist_no_lower endLsn (releasePayload bytes replay)

theorem reaches_end (endLsn : Lsn) (replay : ReplayState) : endLsn ≤ (persistThrough endLsn replay).persistedLsn.getD 0 := by
  change endLsn ≤ greatestLsn replay.persistedLsn endLsn
  cases replay.persistedLsn with
  | none => exact Nat.le_refl _
  | some lsn => exact Nat.le_max_right _ _

section Calls

variable (db after : IngressCatalog Payload) (generation : Nat)

theorem commit_rises {ingressTxnId : Nat} {commitLsn endLsn : Lsn}
    (ok : (commitIngressTransaction db ingressTxnId commitLsn endLsn).map Prod.fst = .ok after) :
    Rises db after generation := by
  obtain ⟨facts, made⟩ := map_fst_ok ok
  obtain ⟨_, txn, _, _, ⟨_, _, _, rfl⟩ | ⟨_, _, _, rfl⟩⟩ := commit_cases made
  · exact rises_update _ _ _ _ (persist_no_lower endLsn)
  · apply rises_trans _ _ _ (rises_same _ _ rfl)
    exact rises_update _ _ _ _ (seal_no_lower endLsn txn.payloadBytes)

theorem finish_rises (ingressTxnId : Nat) (boundary : Option IngressBoundary)
    (ok : finishBatch db ingressTxnId boundary = .ok after) : Rises db after generation := by
  cases boundary with
  | none =>
      cases ok
      exact rises_refl _
  | some boundary =>
      cases boundary with
      | commit commitLsn endLsn => exact commit_rises db after generation ok
      | abortTransaction abortLsn =>
          obtain ⟨finalized, made⟩ := map_fst_ok ok
          obtain ⟨_, txn, _, ⟨_, _, rfl⟩ | ⟨_, _, rfl⟩⟩ := abort_cases made
          · exact rises_refl _
          · apply rises_trans _ _ _ (rises_same _ _ rfl)
            exact rises_update _ _ _ _ (release_no_lower txn.payloadBytes)
      | abortSubtransaction sourceSubxid =>
          obtain ⟨recorded, made⟩ := map_fst_ok ok
          obtain ⟨_, txn, _, _, rfl⟩ := abort_subtransaction_cases _ _ _ _ _ made
          exact rises_same _ _ rfl

theorem claim_rises (identity : ReplayIdentity) (row : ClaimedTransaction)
    (ok : claimIngressTransaction db identity = .ok (after, row)) : Rises db after generation := by
  obtain ⟨_, _, ⟨_, _, rfl, _⟩ | ⟨_, _, rfl, _⟩⟩ := claim_cases _ _ _ _ ok
  · exact rises_refl _
  · exact rises_same _ _ rfl

theorem feedback_rises (lsn : Lsn) (facts : FeedbackFacts)
    (ok : recordIngressFeedback db generation lsn = .ok (after, facts)) : Rises db after generation := by
  rcases record_feedback_cases ok with rfl | rfl
  · exact rises_refl _
  · exact rises_update _ _ _ _ fun _ => ⟨rfl, Nat.le_refl _⟩

end Calls

section Batches

-- The header a batch claimed belongs to the generation of the run.
def Belongs (db : IngressCatalog Payload) (ingressTxnId generation : Nat) : Prop :=
  ∃ txn, db.findTransaction ingressTxnId = some txn ∧ txn.slotGeneration = generation

variable {db after : IngressCatalog Payload} {generation : Nat}

theorem claim_belongs (identity : ReplayIdentity) (row : ClaimedTransaction)
    (ok : claimIngressTransaction db identity = .ok (after, row)) :
    Belongs after row.ingressTxnId identity.slotGeneration := by
  obtain ⟨_, _, ⟨txn, known, rfl, rfl⟩ | ⟨_, _, rfl, rfl⟩⟩ := claim_cases _ _ _ _ ok
  · obtain ⟨member, same⟩ := IngressCatalog.identified_some _ _ _ known
    exact ⟨txn, Table.find_mem _ _ member, congrArg ReplayIdentity.slotGeneration same⟩
  · refine ⟨freshTransaction identity db.transactions.next, ?_, rfl⟩
    apply Table.find_mem _ (freshTransaction identity db.transactions.next : IngressTransaction Payload)
    exact (mem_open_transaction _ _ _).mpr (.inr rfl)

theorem belongs_updated (ingressTxnId updated : Nat) (change : IngressTransaction Payload → IngressTransaction Payload)
    (keeps : ∀ txn, (change txn).ingressTxnId = txn.ingressTxnId)
    (stays : ∀ txn, (change txn).slotGeneration = txn.slotGeneration) (belongs : Belongs db ingressTxnId generation) :
    Belongs (db.updateTransaction updated change keeps) ingressTxnId generation := by
  obtain ⟨txn, found, same⟩ := belongs
  have finds := Table.find_update db.transactions updated change keeps ingressTxnId
  by_cases here : ingressTxnId = updated
  · subst here
    rw [if_pos rfl] at finds
    exact ⟨change txn, finds.trans (congrArg (Option.map change) found), (stays txn).trans same⟩
  · rw [if_neg here] at finds
    exact ⟨txn, finds.trans found, same⟩

theorem commit_durable (ingressTxnId : Nat) (commitLsn endLsn : Lsn) (belongs : Belongs db ingressTxnId generation)
    (ok : (commitIngressTransaction db ingressTxnId commitLsn endLsn).map Prod.fst = .ok after) :
    Durable after generation endLsn := by
  obtain ⟨txn, found, rfl⟩ := belongs
  obtain ⟨facts, made⟩ := map_fst_ok ok
  obtain ⟨replay, locked, lock, _, sealed⟩ := commit_cases made
  obtain ⟨again, active⟩ := lock_transaction_ok lock
  obtain rfl := Option.some.inj (found.symm.trans again)
  rcases sealed with ⟨_, _, _, rfl⟩ | ⟨_, _, _, rfl⟩
  · refine ⟨_, active_updated _ _ _ (persist_no_lower endLsn) active, ?_⟩
    rw [if_pos rfl]
    exact reaches_end endLsn replay
  · refine ⟨_, active_updated _ _ _ (seal_no_lower endLsn txn.payloadBytes) active, ?_⟩
    rw [if_pos rfl]
    exact reaches_end endLsn _

variable [DecidableEq Payload] (codec : PayloadCodec Payload) (settings : AdmissionSettings Payload)

theorem admit_rises (ingressTxnId : Nat) (events : List (IngressEvent Payload)) (facts : AdmissionFacts)
    (ok : admitEvents codec settings db ingressTxnId events = .ok (after, facts)) : Rises db after generation := by
  obtain ⟨locked, txn, _, _, _, ⟨_, rfl⟩ | ⟨_, _, allocation, _, _, _, _, _, rfl⟩⟩ := admit_events_cases ok
  · exact rises_refl _
  · have staged : NoLower (stagePayload (classifyReplay codec txn events).batchPayloadBytes) :=
      fun _ => ⟨rfl, Nat.le_refl _⟩
    unfold admittedBatch
    apply rises_trans _ _ _ (rises_same _ _ rfl)
    exact rises_update _ _ _ _ staged

theorem admit_belongs (ingressTxnId other : Nat) (events : List (IngressEvent Payload)) (facts : AdmissionFacts)
    (ok : admitEvents codec settings db ingressTxnId events = .ok (after, facts)) (belongs : Belongs db other generation) :
    Belongs after other generation := by
  obtain ⟨txn, found, same⟩ := belongs
  obtain ⟨locked, header, _, _, _, ⟨_, rfl⟩ | ⟨_, _, allocation, _, _, _, _, _, rfl⟩⟩ := admit_events_cases ok
  · exact ⟨txn, found, same⟩
  · exact belongs_updated other header.ingressTxnId (admitRows allocation _ _) (fun _ => rfl) (fun _ => rfl)
      ⟨txn, found, same⟩

-- A batch takes nothing back, and its commit is durable when it is.
theorem persist_durable (batch : IngressBatch Payload) (ok : persistIngressBatch codec settings db generation batch = .ok after) :
    Rises db after generation ∧
      ∀ commitLsn endLsn, batch.boundary = some (.commit commitLsn endLsn) → Durable after generation endLsn := by
  obtain ⟨⟨claimedDb, row⟩, claim, ok⟩ := bind_ok_iff.mp ok
  obtain ⟨⟨admittedDb, facts⟩, admits, ok⟩ := bind_ok_iff.mp ok
  change finishBatch admittedDb row.ingressTxnId batch.boundary = .ok after at ok
  have opened : Rises db claimedDb generation := claim_rises db claimedDb generation _ row claim
  have staged : Rises claimedDb admittedDb generation := admit_rises codec settings _ _ _ admits
  have finished : Rises admittedDb after generation := finish_rises admittedDb after generation _ _ ok
  refine ⟨rises_trans _ _ _ opened (rises_trans _ _ _ staged finished), ?_⟩
  intro commitLsn endLsn boundary
  rw [boundary] at ok
  have belongs : Belongs claimedDb row.ingressTxnId generation := claim_belongs _ row claim
  exact commit_durable _ _ endLsn (admit_belongs codec settings _ _ _ _ admits belongs) ok

end Batches

section Sources

variable (rowCodec : RowCodec Payload Row) (db after : SourceCatalog Payload Row) (generation : Nat)

theorem publish_rises (ok : (publishSourceBatch rowCodec db generation).map Prod.fst = .ok after) :
    Rises db.ingress after.ingress generation := by
  obtain ⟨publication, made⟩ := map_fst_ok ok
  obtain ⟨_, _, ⟨_, rfl, _⟩ | ⟨_, txn, task, next, _, _, _, _, advanced⟩⟩ := publish_source_batch_cases made
  · exact rises_refl _
  · split at advanced
    · obtain ⟨_, _, _, same⟩ := advance_task_cases advanced
      exact rises_same _ _ (same ▸ rfl)
    · exact rises_same _ _ (Except.ok.inj advanced ▸ rfl)

theorem catalog_call_rises (call : CatalogCall) (ok : catalogCall rowCodec db generation call = .ok after) :
    Rises db.ingress after.ingress generation := by
  cases call with
  | publish => exact publish_rises rowCodec db after generation ok
  | advanceFrontier =>
      obtain ⟨result, made, rfl⟩ := except_map_ok ok
      obtain ⟨_, _, ⟨_, same⟩ | ⟨target, _, same⟩⟩ := advance_frontier_cases made
      · exact rises_same _ _ (same ▸ rfl)
      · change Rises db.ingress result.1 generation
        rw [same]
        exact rises_update _ _ _ _ fun _ => ⟨rfl, Nat.le_refl _⟩
  | reconcileReplaySafe slot =>
      obtain ⟨result, made, rfl⟩ := except_map_ok ok
      rcases reconcile_safe_cases made with same | ⟨actual, same⟩
      · exact rises_same _ _ (same ▸ rfl)
      · change Rises db.ingress result.1 generation
        rw [same]
        exact rises_update _ _ _ _ fun _ => ⟨rfl, Nat.le_refl _⟩
  | collect due maxTransactions =>
      obtain ⟨result, made, rfl⟩ := except_map_ok ok
      exact rises_same _ _ (gc_cases _ _ _ _ _ made).1
  | stream call => exact rises_same _ _ (congrArg IngressCatalog.replayState (stream_step_ingress ok))

end Sources

end Shiba.Runtime
