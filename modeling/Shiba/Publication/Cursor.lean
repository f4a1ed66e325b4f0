import Shiba.Publication.Log

set_option autoImplicit false

namespace Shiba.Publication

open SerialTable Transition Shiba.Ingress Shiba.Stream

variable {Payload Row : Type}

-- The task a publication works on, seen from the catalog it was chosen in.
structure LockedTask (db : IngressCatalog Payload) (slotGeneration : Nat) (txn : IngressTransaction Payload) (task : Task)
    (row : PublicationTask) : Prop where
  found : db.findTransaction txn.ingressTxnId = some txn
  named : task.ingressTxnId = txn.ingressTxnId
  generation : txn.slotGeneration = slotGeneration
  committed : txn.status = .committed
  final : txn.finalLsn = some task.finalLsn
  member : row ∈ txn.publications
  waiting : row.nextInputSeq = some task.nextInputSeq
  batch : row.batchOrdinal = task.batchOrdinal
  source : row.sourceOid = task.sourceOid
  first : row.firstInputSeq = task.firstInputSeq
  last : row.lastInputSeq = task.lastInputSeq
  only : (txn.publications.filter fun other => namesTask task.batchOrdinal task.sourceOid other && isPending other) = [row]
  earliest : ∀ pending ∈ pendingTasks db slotGeneration, pending.task.sourceOid = task.sourceOid →
    ¬ pending.order < PendingTask.order ⟨txn, row⟩

theorem pending_task_mem (db : IngressCatalog Payload) (slotGeneration : Nat) (pending : PendingTask Payload) :
    pending ∈ pendingTasks db slotGeneration ↔ pending.header ∈ db.transactions.rows ∧
      pending.header.slotGeneration = slotGeneration ∧ pending.header.status = .committed ∧
      pending.task ∈ pending.header.publications ∧ isPending pending.task = true := by
  simp only [pendingTasks, List.mem_flatMap, List.mem_map, List.mem_filter, committedIn, decide_eq_true_eq]
  constructor
  · rintro ⟨txn, ⟨member, generation, committed⟩, task, ⟨taskMember, waits⟩, rfl⟩
    exact ⟨member, generation, committed, taskMember, waits⟩
  · rintro ⟨member, generation, committed, taskMember, waits⟩
    exact ⟨pending.header, ⟨member, generation, committed⟩, pending.task, ⟨taskMember, waits⟩, rfl⟩

theorem locked_task_of {db : SourceCatalog Payload Row} {slotGeneration : Nat} {candidate : PendingTask Payload}
    {txn : IngressTransaction Payload} {task : Task} (chosen : chooseCandidate db slotGeneration = some candidate)
    (locked : lockTask db.ingress slotGeneration candidate = .ok (txn, task)) :
    ∃ row, LockedTask db.ingress slotGeneration txn task row := by
  obtain ⟨found, isCommitted, final, row, only, isTask⟩ := lock_task_cases locked
  simp only [committedIn, decide_eq_true_eq] at isCommitted
  obtain ⟨member, eligibility⟩ := List.mem_filter.mp (List.argmin_mem chosen)
  obtain ⟨headerMember, _, _, taskMember, waits⟩ := (pending_task_mem _ _ _).mp member
  obtain ⟨txnMember, sameId⟩ := db.ingress.transactions.mem_of_find _ _ found
  have isHeader : txn = candidate.header :=
    db.ingress.transactions.row_unique txn candidate.header txnMember headerMember sameId
  subst isHeader
  have chosenRow : candidate.task ∈ [row] := by
    rw [← only]
    exact List.mem_filter.mpr ⟨taskMember, by simp [namesTask, waits]⟩
  have isRow : row = candidate.task := (List.mem_singleton.mp chosenRow).symm
  subst isRow
  obtain ⟨cursor, starts⟩ := Option.isSome_iff_exists.mp waits
  refine ⟨candidate.task, found, ?_, isCommitted.1, isCommitted.2, final, taskMember, ?_, ?_, ?_, ?_, ?_, ?_, ?_⟩
  · rw [isTask]
  · rw [isTask, starts]
    rfl
  · rw [isTask]
  · rw [isTask]
  · rw [isTask]
  · rw [isTask]
  · rw [isTask]
    exact only
  · intro pending pendingMember sameSource earlier
    rw [isTask] at sameSource
    simp only [eligible, Bool.and_eq_true, Bool.not_eq_true'] at eligibility
    have none := List.any_eq_false.mp eligibility.1 pending pendingMember
    exact none (by simp [sameSource, earlier])

section Advance

variable {db : IngressCatalog Payload} {slotGeneration : Nat} {txn : IngressTransaction Payload} {task : Task}
  {row : PublicationTask} (locked : LockedTask db slotGeneration txn task row)

include locked

theorem locked_at_cursor (other : PublicationTask) (member : other ∈ txn.publications) :
    atCursor task other = true ↔ other = row := by
  constructor
  · intro hit
    simp only [atCursor, Bool.and_eq_true, decide_eq_true_eq] at hit
    have inFilter : other ∈ [row] := by
      rw [← locked.only]
      exact List.mem_filter.mpr ⟨member, by simp [hit.1, isPending, hit.2]⟩
    exact List.mem_singleton.mp inFilter
  · rintro rfl
    simp [atCursor, namesTask, locked.batch, locked.source, locked.waiting]

theorem advanced_tasks_mem (finished : Bool) (next : Option Nat) (other : PublicationTask) :
    other ∈ (advanceHeader task finished next txn).publications ↔
      (other ∈ txn.publications ∧ other ≠ row) ∨ other = { row with nextInputSeq := next } := by
  simp only [advanceHeader, List.mem_map]
  constructor
  · rintro ⟨before, member, rfl⟩
    by_cases hit : before = row
    · have on := (locked_at_cursor locked before member).mpr hit
      subst hit
      exact .inr (by simp [moveCursor, on])
    · have miss : ¬ atCursor task before = true :=
        fun on => hit ((locked_at_cursor locked before member).mp on)
      exact .inl (by simp [moveCursor, miss, member, hit])
  · rintro (⟨member, different⟩ | rfl)
    · have miss : ¬ atCursor task other = true :=
        fun on => different ((locked_at_cursor locked other member).mp on)
      exact ⟨other, member, by simp [moveCursor, miss]⟩
    · exact ⟨row, locked.member, by
        simp [moveCursor, (locked_at_cursor locked row locked.member).mpr rfl]⟩

-- Any other unfinished task of the same header and source starts later.
theorem others_later {codec : PayloadCodec Payload} (accounts : Accounts codec db) (facts : TaskFacts db)
    {other : PublicationTask} (member : other ∈ txn.publications) (different : other ≠ row)
    (sameSource : other.sourceOid = task.sourceOid) {cursor : Nat} (starts : other.nextInputSeq = some cursor) :
    task.lastInputSeq < cursor := by
  have txnMember := (db.transactions.mem_of_find _ _ locked.found).1
  obtain ⟨bound, ranges⟩ := (accounts.headers txn txnMember).ranges
  have notEarlier := locked.earliest ⟨txn, other⟩
    ((pending_task_mem _ _ _).mpr ⟨txnMember, locked.generation, locked.committed, member, by simp [isPending, starts]⟩)
    sameSource
  have notSame : other.batchOrdinal ≠ row.batchOrdinal := by
    intro same
    have inFilter : other ∈ [row] := by
      rw [← locked.only]
      exact List.mem_filter.mpr ⟨member, by simp [namesTask, same, locked.batch, sameSource, isPending, starts]⟩
    exact different (List.mem_singleton.mp inFilter)
  have later : row.batchOrdinal < other.batchOrdinal := by
    by_contra notLater
    have earlier : other.batchOrdinal < row.batchOrdinal :=
      Nat.lt_of_le_of_ne (Nat.le_of_not_lt notLater) notSame
    exact notEarlier (Prod.Lex.right _ (Prod.Lex.right _ earlier))
  obtain ⟨batch, batchBelow, batchOrdinal, _, batchLast⟩ := ranges.shared row locked.member
  obtain ⟨otherBatch, otherBelow, otherOrdinal, otherFirst, _⟩ := ranges.shared other member
  have climbs : ∀ step, batch + 1 + step ≤ txn.batchCount → bound (batch + 1) ≤ bound (batch + 1 + step) := by
    intro step
    induction step with
    | zero => exact fun _ => Nat.le_refl _
    | succ step ih =>
        intro within
        have rises := ranges.rises (batch + 1 + step) (by omega)
        have below := ih (by omega)
        rw [← Nat.add_assoc]
        omega
  have reaches := climbs (otherBatch - (batch + 1)) (by omega)
  have sum : batch + 1 + (otherBatch - (batch + 1)) = otherBatch := by omega
  rw [sum] at reaches
  have starting := ((facts.headers txn txnMember).cursors other member cursor starts).1
  rw [← locked.last]
  omega

theorem awaiting_advanced (finished : Bool) (next : Option Nat) (sourceOid : Oid) (inputSeq : Nat) :
    Awaiting (advanceHeader task finished next txn) sourceOid inputSeq ↔
      (∃ other ∈ txn.publications, other ≠ row ∧ other.sourceOid = sourceOid ∧
        ∃ cursor, other.nextInputSeq = some cursor ∧ cursor ≤ inputSeq ∧ inputSeq ≤ other.lastInputSeq) ∨
      (task.sourceOid = sourceOid ∧ ∃ cursor, next = some cursor ∧ cursor ≤ inputSeq ∧ inputSeq ≤ task.lastInputSeq) := by
  constructor
  · rintro ⟨other, member, source, cursor, starts, low, high⟩
    rcases (advanced_tasks_mem locked finished next other).mp member with ⟨old, different⟩ | rfl
    · exact .inl ⟨other, old, different, source, cursor, starts, low, high⟩
    · exact .inr ⟨locked.source.symm.trans source, cursor, starts, low, locked.last ▸ high⟩
  · rintro (⟨other, old, different, source, cursor, starts, low, high⟩ | ⟨source, cursor, starts, low, high⟩)
    · exact ⟨other, (advanced_tasks_mem locked finished next other).mpr (.inl ⟨old, different⟩),
        source, cursor, starts, low, high⟩
    · exact ⟨{ row with nextInputSeq := next },
        (advanced_tasks_mem locked finished next _).mpr (.inr rfl),
        locked.source.trans source, cursor, starts, low, locked.last.symm ▸ high⟩

theorem awaiting_before (sourceOid : Oid) (inputSeq : Nat) :
    Awaiting txn sourceOid inputSeq ↔
      (∃ other ∈ txn.publications, other ≠ row ∧ other.sourceOid = sourceOid ∧
        ∃ cursor, other.nextInputSeq = some cursor ∧ cursor ≤ inputSeq ∧ inputSeq ≤ other.lastInputSeq) ∨
      (task.sourceOid = sourceOid ∧ task.nextInputSeq ≤ inputSeq ∧ inputSeq ≤ task.lastInputSeq) := by
  constructor
  · rintro ⟨other, member, source, cursor, starts, low, high⟩
    by_cases hit : other = row
    · subst hit
      rw [locked.waiting] at starts
      cases starts
      exact .inr ⟨locked.source.symm.trans source, low, locked.last ▸ high⟩
    · exact .inl ⟨other, member, hit, source, cursor, starts, low, high⟩
  · rintro (⟨other, member, _, source, cursor, starts, low, high⟩ | ⟨source, low, high⟩)
    · exact ⟨other, member, source, cursor, starts, low, high⟩
    · exact ⟨row, locked.member, locked.source.trans source, task.nextInputSeq, locked.waiting, low, locked.last.symm ▸ high⟩

end Advance

section Published

variable (state : LoggedCatalog Payload Row) (slotGeneration : Nat) (txn : IngressTransaction Payload) (task : Task)
  (row : PublicationTask) (locked : LockedTask state.catalog.ingress slotGeneration txn task row) (finished : Bool)
  (next : Option Nat) (streams : Table (EffectStream Row) EffectStream.streamId) (log : List (LogEntry Row))

-- The catalog after the cursor of a locked task moved.
def advancedState (state : LoggedCatalog Payload Row) (txn : IngressTransaction Payload) (task : Task) (finished : Bool)
    (next : Option Nat) (streams : Table (EffectStream Row) EffectStream.streamId) (log : List (LogEntry Row)) :
    LoggedCatalog Payload Row :=
  ⟨⟨state.catalog.ingress.updateTransaction txn.ingressTxnId (advanceHeader task finished next) (fun _ => rfl), streams⟩, log⟩

variable {state slotGeneration txn task row}

@[simp] theorem advanced_state_log (state : LoggedCatalog Payload Row) (txn : IngressTransaction Payload) (task : Task)
    (finished : Bool) (next : Option Nat) (streams : Table (EffectStream Row) EffectStream.streamId)
    (log : List (LogEntry Row)) : (advancedState state txn task finished next streams log).log = log := rfl

include locked

theorem advanced_header_mem (header : IngressTransaction Payload) :
    header ∈ (advancedState state txn task finished next streams log).catalog.ingress.transactions.rows ↔
      (header ∈ state.catalog.ingress.transactions.rows ∧ header.ingressTxnId ≠ txn.ingressTxnId) ∨
        header = advanceHeader task finished next txn :=
  state.catalog.ingress.mem_update_transaction _ (advanceHeader task finished next) (fun _ => rfl) txn header locked.found

-- What a cursor move publishes: the live events between the old cursor and the new one.
theorem published_event_moved (codec : PayloadCodec Payload) (accounts : Accounts codec state.catalog.ingress)
    (facts : TaskFacts state.catalog.ingress)
    (onward : ∀ seq, next = some seq → task.nextInputSeq ≤ seq) (event : SourceEvent Payload) :
    PublishedEvent (advancedState state txn task finished next streams log) slotGeneration task.sourceOid event ↔
      PublishedEvent ⟨state.catalog, log⟩ slotGeneration task.sourceOid event ∨
        (event.1 = task.finalLsn ∧ event.2 ∈ sourceEvents txn task.sourceOid task.nextInputSeq task.lastInputSeq ∧
          (∀ seq, next = some seq → event.2.inputSeq < seq) ∧
          ¬ Discarded log slotGeneration task.sourceOid txn.ingressTxnId event.2.inputSeq) := by
  have txnMember := (state.catalog.ingress.transactions.mem_of_find _ _ locked.found).1
  constructor
  · rintro ⟨header, member, generation, committed, final, logged, source, kept, passed, undiscarded⟩
    rcases (advanced_header_mem locked finished next streams log header).mp member with
      ⟨old, _⟩ | rfl
    · exact .inl ⟨header, old, generation, committed, final, logged, source, kept, passed, undiscarded⟩
    · rw [awaiting_advanced locked] at passed
      obtain ⟨noOther, noNext⟩ := not_or.mp passed
      by_cases within : task.nextInputSeq ≤ event.2.inputSeq ∧ event.2.inputSeq ≤ task.lastInputSeq
      · refine .inr ⟨?_, ?_, ?_, undiscarded⟩
        · exact (Option.some.inj (locked.final.symm.trans final)).symm
        · exact (source_events_mem _ _ _ _ _).mpr ⟨logged, source, within.1, within.2, kept⟩
        · intro seq isNext
          by_contra beyond
          exact noNext ⟨rfl, seq, isNext, Nat.le_of_not_lt beyond, within.2⟩
      · refine .inl ⟨txn, txnMember, generation, committed, final, logged, source, kept, ?_, undiscarded⟩
        rw [awaiting_before locked]
        rintro (other | ⟨_, low, high⟩)
        · exact noOther other
        · exact within ⟨low, high⟩
  · rintro (⟨header, member, generation, committed, final, logged, source, kept, passed, undiscarded⟩ |
      ⟨final, live, before, undiscarded⟩)
    · by_cases hit : header.ingressTxnId = txn.ingressTxnId
      · have same := state.catalog.ingress.transactions.row_unique header txn member txnMember hit
        subst same
        refine ⟨advanceHeader task finished next header,
          (advanced_header_mem locked finished next streams log _).mpr (.inr rfl),
          generation, committed, final, logged, source, kept, ?_, undiscarded⟩
        rw [awaiting_advanced locked]
        rw [awaiting_before locked] at passed
        rintro (other | ⟨_, seq, isNext, low, high⟩)
        · exact passed (.inl other)
        · exact passed (.inr ⟨rfl, Nat.le_trans (onward seq isNext) low, high⟩)
      · exact ⟨header, (advanced_header_mem locked finished next streams log header).mpr (.inl ⟨member, hit⟩),
          generation, committed, final, logged, source, kept, passed, undiscarded⟩
    · obtain ⟨logged, source, low, high, kept⟩ := (source_events_mem _ _ _ _ _).mp live
      refine ⟨advanceHeader task finished next txn, (advanced_header_mem locked finished next streams log _).mpr (.inr rfl),
        locked.generation, locked.committed, locked.final.trans (by rw [final]), logged, source, kept, ?_, undiscarded⟩
      rw [awaiting_advanced locked]
      rintro (⟨other, member, different, sameSource, cursor, starts, reached, _⟩ | ⟨_, seq, isNext, reached, _⟩)
      · have later := others_later locked accounts facts member different sameSource starts
        omega
      · have below := before seq isNext
        omega

theorem published_event_elsewhere (generation : Nat) (sourceOid : Oid)
    (elsewhere : generation ≠ slotGeneration ∨ sourceOid ≠ task.sourceOid) (event : SourceEvent Payload) :
    PublishedEvent (advancedState state txn task finished next streams log) generation sourceOid event ↔
      PublishedEvent ⟨state.catalog, log⟩ generation sourceOid event := by
  have txnMember := (state.catalog.ingress.transactions.mem_of_find _ _ locked.found).1
  have sameAwaiting : txn.slotGeneration = generation → ∀ seq,
      (Awaiting (advanceHeader task finished next txn) sourceOid seq ↔ Awaiting txn sourceOid seq) := by
    intro isGeneration seq
    have otherSource : task.sourceOid ≠ sourceOid := by
      rcases elsewhere with different | different
      · exact absurd (isGeneration.symm.trans locked.generation) different
      · exact Ne.symm different
    rw [awaiting_advanced locked, awaiting_before locked]
    simp only [otherSource, false_and, or_false]
  constructor
  · rintro ⟨header, member, isGeneration, committed, final, logged, source, kept, passed, undiscarded⟩
    rcases (advanced_header_mem locked finished next streams log header).mp member with
      ⟨old, _⟩ | rfl
    · exact ⟨header, old, isGeneration, committed, final, logged, source, kept, passed, undiscarded⟩
    · exact ⟨txn, txnMember, isGeneration, committed, final, logged, source, kept,
        fun awaits => passed ((sameAwaiting isGeneration _).mpr awaits), undiscarded⟩
  · rintro ⟨header, member, isGeneration, committed, final, logged, source, kept, passed, undiscarded⟩
    by_cases hit : header.ingressTxnId = txn.ingressTxnId
    · have same := state.catalog.ingress.transactions.row_unique header txn member txnMember hit
      subst same
      exact ⟨advanceHeader task finished next header,
        (advanced_header_mem locked finished next streams log _).mpr (.inr rfl),
        isGeneration, committed, final, logged, source, kept,
        fun awaits => passed ((sameAwaiting isGeneration _).mp awaits), undiscarded⟩
    · exact ⟨header, (advanced_header_mem locked finished next streams log header).mpr (.inl ⟨member, hit⟩),
        isGeneration, committed, final, logged, source, kept, passed, undiscarded⟩

end Published

end Shiba.Publication
