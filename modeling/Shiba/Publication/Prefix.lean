import Shiba.Stream.Effects
import Shiba.Publication.Effects

set_option autoImplicit false

namespace Shiba.Publication

open Budget Shiba.Ingress Shiba.Stream

variable {Payload Row : Type}

def SortedRows (rows : List (ChangeRow Payload)) : Prop := rows.Pairwise fun a b => a.inputSeq < b.inputSeq

-- A payload row of one stream holds one admitted event.
structure TypedAs (codec : RowCodec Payload Row) (streamId : Nat) (event : ChangeRow Payload) (row : EffectRow Row) :
    Prop where
  weight : row.weight = event.weight
  typed : codec.populate streamId event.payload = .ok row.rowValue

-- What one append takes from a task: its first live events, in order, and a
-- cursor at the first one left.
structure PrefixTaken (txn : IngressTransaction Payload) (task : Task) (chosen : List (ChangeRow Payload))
    (next : Option Nat) : Prop where
  some : chosen ≠ []
  sorted : SortedRows chosen
  live : ∀ event ∈ chosen, event ∈ sourceEvents txn task.sourceOid task.nextInputSeq task.lastInputSeq
  rest : ∀ event ∈ sourceEvents txn task.sourceOid task.nextInputSeq task.lastInputSeq, event ∉ chosen →
    ∃ cursor, next = .some cursor ∧ cursor ≤ event.inputSeq
  cursor : ∀ seq, next = .some seq → seq ≤ task.lastInputSeq ∧ task.nextInputSeq < seq ∧
    ∀ event ∈ chosen, event.inputSeq < seq

variable {task : Task} (rows : List (ChangeRow Payload)) {outcome : SourcePublicationOutcome}
  (codec : RowCodec Payload Row) (txn : IngressTransaction Payload)

theorem convert_events_ok (streamId : Nat) (events : List (ChangeRow Payload)) (converted : List (TypedEvent Row))
    (ok : convertEvents codec streamId events = .ok converted) :
    converted.map TypedEvent.inputSeq = events.map ChangeRow.inputSeq ∧
      List.Forall₂ (TypedAs codec streamId) events (converted.map TypedEvent.row) := by
  induction events generalizing converted with
  | nil =>
      cases ok
      exact ⟨rfl, .nil⟩
  | cons event rest ih =>
      simp only [convertEvents] at ok
      cases typed : codec.populate streamId event.payload with
      | error fault => simp [typed] at ok
      | ok rowValue =>
          cases tail : convertEvents codec streamId rest with
          | error fault => simp [typed, tail] at ok
          | ok others =>
              simp only [typed, tail, Except.ok.injEq] at ok
              subst ok
              obtain ⟨seqs, rows⟩ := ih others tail
              exact ⟨by simp [seqs], .cons ⟨rfl, typed⟩ rows⟩

theorem select_events_prefix (limits : StreamLimits) (events : List (TypedEvent Row)) :
    ∃ count, selectEvents codec limits events = events.take count ∧ (events ≠ [] → 0 < count) := by
  suffices fitting : ∀ index, _ → _ from by
    obtain ⟨count, same, positive, _⟩ := within_budget_prefix _ events fitting
    exact ⟨count, same, positive⟩
  intro index fits
  simp only [Bool.and_eq_true, decide_eq_true_eq] at fits ⊢
  constructor
  · exact Nat.le_trans (by simp only [List.length_take]; omega) fits.1
  · exact take_sum_le fits.2

theorem source_events_mem (sourceOid : Oid) (first last : Nat) (event : ChangeRow Payload) :
    event ∈ sourceEvents txn sourceOid first last ↔ event ∈ txn.changeLog ∧ event.sourceOid = sourceOid ∧
      first ≤ event.inputSeq ∧ event.inputSeq ≤ last ∧ event.sourceSubxid ∉ txn.abortedSubtransactions := by
  simp only [sourceEvents, List.mem_filter, Bool.and_eq_true, decide_eq_true_eq, and_assoc]

theorem source_events_sorted (sorted : SortedRows txn.changeLog) (sourceOid : Oid) (first last : Nat) :
    SortedRows (sourceEvents txn sourceOid first last) :=
  sorted.filter _

theorem sorted_of_numbered (first count : Nat) (numbered : rows.map ChangeRow.inputSeq = List.range' first count) :
    SortedRows rows := by
  have rises : (rows.map ChangeRow.inputSeq).Pairwise (· < ·) := numbered ▸ List.pairwise_lt_range'
  exact List.pairwise_map.mp rises

theorem sorted_take_below (sorted : SortedRows rows) (count : Nat) (event : ChangeRow Payload) (member : event ∈ rows)
    (untaken : event ∉ rows.take count) :
    ∀ taken ∈ rows.take count, taken.inputSeq < event.inputSeq := by
  intro taken takenMember
  have split := List.take_append_drop count rows
  rw [← split] at sorted member
  rcases List.mem_append.mp member with early | late
  · exact absurd early untaken
  · exact (List.pairwise_append.mp sorted).2.2 taken takenMember event late

-- The selected prefix and the min(input_seq) after its last row.
theorem prefix_taken (sorted : SortedRows txn.changeLog) (task : Task) (count last : Nat) (chosen : List (ChangeRow Payload))
    (isPrefix : chosen = (sourceEvents txn task.sourceOid task.nextInputSeq task.lastInputSeq).take count)
    (present : chosen ≠ []) (isLast : (chosen.map ChangeRow.inputSeq).max? = some last) :
    PrefixTaken txn task chosen (nextInput txn task (some last)) := by
  have eventsSorted := source_events_sorted txn sorted task.sourceOid task.nextInputSeq task.lastInputSeq
  have live : ∀ event ∈ chosen, event ∈ sourceEvents txn task.sourceOid task.nextInputSeq task.lastInputSeq := by
    intro event member
    rw [isPrefix] at member
    exact List.mem_of_mem_take member
  obtain ⟨lastMember, lastGreatest⟩ := List.max?_eq_some_iff.mp isLast
  refine ⟨present, ?_, live, ?_, ?_⟩
  · rw [isPrefix]
    exact eventsSorted.sublist (List.take_sublist _ _)
  · intro event member untaken
    have above : ∀ taken ∈ chosen, taken.inputSeq < event.inputSeq := by
      rw [isPrefix]
      exact sorted_take_below _ eventsSorted count event member (isPrefix ▸ untaken)
    obtain ⟨lastEvent, lastChosen, isSeq⟩ := List.mem_map.mp lastMember
    have later : last < event.inputSeq := isSeq ▸ above lastEvent lastChosen
    obtain ⟨logged, source, _, within, kept⟩ := (source_events_mem _ _ _ _ _).mp member
    have remaining : event.inputSeq ∈
        (sourceEvents txn task.sourceOid (last + 1) task.lastInputSeq).map ChangeRow.inputSeq :=
      List.mem_map.mpr ⟨event, (source_events_mem _ _ _ _ _).mpr ⟨logged, source, later, within, kept⟩, rfl⟩
    cases least : ((sourceEvents txn task.sourceOid (last + 1) task.lastInputSeq).map ChangeRow.inputSeq).min? with
    | none => simp [List.min?_eq_none_iff.mp least] at remaining
    | some seq => exact ⟨seq, by simp [nextInput, least], (List.min?_eq_some_iff.mp least).2 _ remaining⟩
  · intro seq isNext
    simp only [nextInput, Option.bind_some] at isNext
    obtain ⟨seqMember, _⟩ := List.min?_eq_some_iff.mp isNext
    obtain ⟨event, member, rfl⟩ := List.mem_map.mp seqMember
    obtain ⟨_, _, after, within, _⟩ := (source_events_mem _ _ _ _ _).mp member
    obtain ⟨lastEvent, lastChosen, isSeq⟩ := List.mem_map.mp lastMember
    obtain ⟨_, _, fromCursor, _, _⟩ := (source_events_mem _ _ _ _ _).mp (live lastEvent lastChosen)
    refine ⟨within, by omega, ?_⟩
    intro taken takenMember
    have below := lastGreatest _ (List.mem_map.mpr ⟨taken, takenMember, rfl⟩)
    omega

theorem typed_bytes_pos (events : List (TypedEvent Row)) (present : events ≠ []) :
    0 < typedBytes codec events := by
  cases events with
  | nil => exact absurd rfl present
  | cons event rest =>
      simp only [typedBytes, List.map_cons, List.sum_cons, RowCodec.effectRowBytes]
      omega

theorem validate_append_facts_cases {facts : AppendFacts} {chunkSeq next : Option Nat} (selected : facts.selectedRows ≠ 0)
    (ok : validateAppendFacts task facts = .ok (outcome, chunkSeq, next)) :
    (facts.appendOutcome = some .blocked ∧ outcome = .blocked ∧ chunkSeq = none ∧ next = none) ∨
      (facts.appendOutcome = some .discarded ∧ outcome = .discarded ∧ chunkSeq = none ∧ next = none) ∨
      ∃ seq, facts.appendOutcome = some (.appended seq) ∧ chunkSeq = some seq ∧ next = facts.nextInputSeq ∧
        outcome = if next.isSome then .appended else .completed := by
  unfold validateAppendFacts at ok
  rw [if_neg selected] at ok
  split at ok
  · cases ok
  · cases appended : facts.appendOutcome with
    | none => simp [appended] at ok
    | some result =>
        cases result with
        | appended seq =>
            simp only [appended] at ok
            split at ok
            · cases ok
            · cases nextSeq : facts.nextInputSeq with
              | none =>
                  simp only [nextSeq, Option.isSome_none, Bool.false_eq_true, if_false, Except.ok.injEq,
                    Prod.mk.injEq] at ok
                  obtain ⟨rfl, rfl, rfl⟩ := ok
                  exact .inr (.inr ⟨seq, rfl, rfl, rfl, rfl⟩)
              | some value =>
                  simp only [nextSeq, Option.isSome_some, if_true, Except.ok.injEq, Prod.mk.injEq] at ok
                  obtain ⟨rfl, rfl, rfl⟩ := ok
                  exact .inr (.inr ⟨seq, rfl, rfl, rfl, rfl⟩)
        | blocked =>
            simp only [appended] at ok
            split at ok
            · cases ok
            · simp only [Except.ok.injEq, Prod.mk.injEq] at ok
              exact .inl ⟨rfl, ok.1.symm, ok.2.1.symm, ok.2.2.symm⟩
        | discarded =>
            simp only [appended] at ok
            split at ok
            · cases ok
            · simp only [Except.ok.injEq, Prod.mk.injEq] at ok
              exact .inr (.inl ⟨rfl, ok.1.symm, ok.2.1.symm, ok.2.2.symm⟩)

inductive PrefixOutcome (codec : RowCodec Payload Row) (txn : IngressTransaction Payload) (task : Task)
    (stream : EffectStream Row) (published : Option Lsn) :
    EffectStream Row → SourcePublicationOutcome → Option Nat → Option Nat → Prop where
  | empty (none : sourceEvents txn task.sourceOid task.nextInputSeq task.lastInputSeq = []) :
      PrefixOutcome codec txn task stream published stream .completed .none .none
  | blocked (pressed : stream.backpressured = true) :
      PrefixOutcome codec txn task stream published stream .blocked .none .none
  | discarded (unwatched : stream.consumers = []) :
      PrefixOutcome codec txn task stream published stream .discarded .none .none
  | appended (chosen : List (ChangeRow Payload)) (rows : List (EffectRow Row)) (bytes : Nat) (next : Option Nat)
      (causal : causalFault stream published .data task.finalLsn = none)
      (typed : List.Forall₂ (TypedAs codec stream.streamId) chosen rows) (taken : PrefixTaken txn task chosen next) :
      PrefixOutcome codec txn task stream published (storeChunk stream .data rows.length bytes task.finalLsn rows)
        (if next.isSome then .appended else .completed) (some stream.nextChunkSeq) next

theorem append_typed_prefix_cases {codec : RowCodec Payload Row} {txn : IngressTransaction Payload}
    (sorted : SortedRows txn.changeLog) (cursor : task.firstInputSeq ≤ task.nextInputSeq) {stream after : EffectStream Row}
    (target : 0 < stream.targetChunkRows) {published : Option Lsn} {chunkSeq next : Option Nat}
    (ok : appendTypedPrefix codec txn task stream published = .ok (after, outcome, chunkSeq, next)) :
    PrefixOutcome codec txn task stream published after outcome chunkSeq next := by
  unfold appendTypedPrefix at ok
  rw [Nat.max_eq_left cursor] at ok
  simp only at ok
  split at ok
  · cases ok
  · rename_i converted conversion
    obtain ⟨seqs, typedRows⟩ := convert_events_ok codec _ _ _ conversion
    obtain ⟨count, selection, positive⟩ := select_events_prefix codec stream.toStreamLimits converted
    rw [selection] at ok
    by_cases nothing : converted.take count = []
    · have noEvents : sourceEvents txn task.sourceOid task.nextInputSeq task.lastInputSeq = [] := by
        by_contra present
        have candidates : (sourceEvents txn task.sourceOid task.nextInputSeq task.lastInputSeq).take
            stream.targetChunkRows ≠ [] := by
          simp only [ne_eq, List.take_eq_nil_iff, not_or]
          exact ⟨Nat.ne_of_gt target, present⟩
        have convertedSome : converted ≠ [] := by
          intro empty
          rw [empty, List.map_nil] at seqs
          exact candidates (List.map_eq_nil_iff.mp seqs.symm)
        rcases List.take_eq_nil_iff.mp nothing with zero | empty
        · exact absurd zero (Nat.ne_of_gt (positive convertedSome))
        · exact convertedSome empty
      simp [nothing, validateAppendFacts, typedBytes, isAppended] at ok
      obtain ⟨rfl, rfl, rfl, rfl⟩ := ok
      exact .empty noEvents
    · have rowsPositive : 0 < (converted.take count).length := List.length_pos_iff.mpr nothing
      have bytesPositive : 0 < typedBytes codec (converted.take count) := typed_bytes_pos codec _ nothing
      obtain ⟨last, isLast⟩ : ∃ last, ((converted.take count).map TypedEvent.inputSeq).max? = some last := by
        cases greatest : ((converted.take count).map TypedEvent.inputSeq).max? with
        | none => exact absurd (List.map_eq_nil_iff.mp (List.max?_eq_none_iff.mp greatest)) nothing
        | some last => exact ⟨last, rfl⟩
      rw [if_pos ⟨rowsPositive, bytesPositive⟩, isLast] at ok
      split at ok
      · cases ok
      · rename_i stored appendOutcome appended
        obtain ⟨result, appendedOk, sameResult⟩ := except_map_ok appended
        obtain ⟨rfl, rfl⟩ := Prod.mk.inj sameResult
        have facts := append_cases appendedOk
        split at ok
        · cases ok
        · rename_i publishedOutcome publishedSeq publishedNext valid
          simp only [Except.ok.injEq, Prod.mk.injEq] at ok
          obtain ⟨rfl, rfl, rfl, rfl⟩ := ok
          obtain ⟨_, ⟨isDiscarded, same, _, unwatched⟩ | ⟨_, _, causal, ⟨isBlocked, same, pressed⟩ |
            ⟨isAppend, _, stored⟩⟩⟩ := facts
          · rcases validate_append_facts_cases (Nat.ne_of_gt rowsPositive) valid with
              ⟨wrong, _⟩ | ⟨_, rfl, rfl, rfl⟩ | ⟨seq, wrong, _⟩
            · simp [isDiscarded] at wrong
            · rw [same]
              exact .discarded unwatched
            · simp [isDiscarded] at wrong
          · rcases validate_append_facts_cases (Nat.ne_of_gt rowsPositive) valid with
              ⟨_, rfl, rfl, rfl⟩ | ⟨wrong, _⟩ | ⟨seq, wrong, _⟩
            · rw [same]
              exact .blocked pressed
            · simp [isBlocked] at wrong
            · simp [isBlocked] at wrong
          · rcases validate_append_facts_cases (Nat.ne_of_gt rowsPositive) valid with
              ⟨wrong, _⟩ | ⟨wrong, _⟩ | ⟨seq, isSeq, rfl, nextSeq, rfl⟩
            · simp [isAppend] at wrong
            · simp [isAppend] at wrong
            · simp only [isAppend, Option.some.injEq, AppendOutcome.appended.injEq] at isSeq
              simp only [isAppend, isAppended, if_true] at nextSeq
              subst isSeq
              subst nextSeq
              have chosenSeqs : ((sourceEvents txn task.sourceOid task.nextInputSeq task.lastInputSeq).take
                  (min count stream.targetChunkRows)).map ChangeRow.inputSeq =
                  (converted.take count).map TypedEvent.inputSeq := by
                rw [← List.take_take, List.map_take, ← seqs, List.map_take]
              have present : (sourceEvents txn task.sourceOid task.nextInputSeq task.lastInputSeq).take
                  (min count stream.targetChunkRows) ≠ [] := by
                intro empty
                rw [empty, List.map_nil] at chosenSeqs
                exact nothing (List.map_eq_nil_iff.mp chosenSeqs.symm)
              have taken := prefix_taken txn sorted task _ last _ rfl present (chosenSeqs ▸ isLast)
              have typed := List.forall₂_take count typedRows
              rw [List.take_take, ← List.map_take] at typed
              rw [stored]
              have length : (converted.take count).length = ((converted.take count).map TypedEvent.row).length := by simp
              rw [length]
              exact .appended _ _ _ _ causal typed taken

end Shiba.Publication
