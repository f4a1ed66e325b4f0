import Shiba.Stream.History

set_option autoImplicit false

namespace Shiba.Stream

open Transition

variable {Row : Type}

section Step

variable (history after : StreamHistory Row) (good : StreamInvariant history)

include good

theorem invariant_publish (lsn : Lsn) :
    StreamInvariant { history with published := some (greatestLsn history.published lsn) } := by
  refine ⟨⟨good.produced.numbered, good.produced.next, good.produced.stored, good.produced.ordered, good.produced.data,
    good.produced.frontiers⟩, good.keys, ?_⟩
  intro row member
  have before := good.consumers row member
  refine ⟨before.within, before.retained, before.consumed, before.witnessed, ?_⟩
  intro risen
  exact passed_publish lsn (before.complete risen)

-- Attaching, dropping and moving consumers leaves the chunks alone.
theorem invariant_consumers (consumers : List StreamConsumer)
    (keys : (consumers.map StreamConsumer.consumer).Nodup)
    (each : ∀ row ∈ consumers, ConsumerInvariant history row) :
    StreamInvariant { history with stream := { history.stream with consumers := consumers } } := by
  refine ⟨⟨good.produced.numbered, good.produced.next, good.produced.stored, good.produced.ordered, good.produced.data,
    good.produced.frontiers⟩, keys, ?_⟩
  intro row member
  have kept := each row member
  exact ⟨kept.within, kept.retained, kept.consumed, kept.witnessed, fun risen =>
    ⟨(kept.complete risen).later, (kept.complete risen).closed⟩⟩

-- A consumer starts where nothing it has to read was produced yet.
theorem consumer_fresh (consumer : ConsumerKey) (activationLsn : Lsn)
    (unproduced : history.stream.isSource = false → history.stream.nextChunkSeq = 1) :
    ConsumerInvariant history (freshConsumer history.stream consumer activationLsn) := by
  have earlier := produced_below history good.produced
  have length := good.produced.next
  have next : (freshConsumer history.stream consumer activationLsn).nextChunkSeq = history.stream.nextChunkSeq := by
    cases producer : history.stream.producer with
    | source slotGeneration sourceOid => simp [freshConsumer, producer]
    | operator resultOid stageId =>
        rw [unproduced (by simp [EffectStream.isSource, producer, Producer.isSource])]
        simp [freshConsumer, producer]
  have level : (freshConsumer history.stream consumer activationLsn).consumedFrontierLsn =
      (freshConsumer history.stream consumer activationLsn).activationLsn := by
    cases producer : history.stream.producer <;> simp [freshConsumer, producer]
  have flat : ¬ (freshConsumer history.stream consumer activationLsn).activationLsn <
      (freshConsumer history.stream consumer activationLsn).consumedFrontierLsn := by
    rw [level]
    exact Nat.lt_irrefl _
  refine ⟨Nat.le_of_eq next, ?_, ?_, fun _ risen => absurd risen flat, fun risen => absurd risen flat⟩
  · intro chunk member ahead
    have below := earlier chunk member
    rw [next] at ahead
    exact absurd below (Nat.not_lt.mpr ahead)
  · intro chunk member isFrontier _
    have operator := (good.produced.frontiers chunk member isFrontier).1
    have empty : history.produced = [] := by
      rw [unproduced operator] at length
      exact List.length_eq_zero_iff.mp (Nat.succ.inj length).symm
    rw [empty] at member
    cases member

theorem invariant_attach {facts : AttachFacts} {consumer : ConsumerKey} {activationLsn : Lsn} {stream : EffectStream Row}
    (ok : attachEffectStreamConsumer history.stream facts consumer activationLsn = .ok stream) :
    StreamInvariant { history with stream := stream } := by
  obtain ⟨absent, unproduced, rfl⟩ := attach_cases ok
  apply invariant_consumers history good
  · have named : (freshConsumer history.stream consumer activationLsn).consumer = consumer := by
      unfold freshConsumer
      split <;> rfl
    rw [List.map_append, List.nodup_append]
    refine ⟨good.keys, List.nodup_singleton _, ?_⟩
    intro key old other fresh
    obtain ⟨row, member, rfl⟩ := List.mem_map.mp old
    simp only [List.map_singleton, List.mem_singleton, named] at fresh
    have different := List.find?_eq_none.mp absent row member
    rw [fresh]
    simpa using different
  · intro row member
    rcases List.mem_append.mp member with old | fresh
    · exact good.consumers row old
    · rw [List.mem_singleton.mp fresh]
      exact consumer_fresh history good consumer activationLsn unproduced

theorem invariant_drop (resultOid : Oid) :
    StreamInvariant { history with stream := dropResult resultOid history.stream } := by
  apply invariant_consumers history good
  · exact good.keys.sublist (List.filter_sublist.map _)
  · intro row member
    exact good.consumers row (List.mem_of_mem_filter member)

omit good in
theorem slowest_below (slowest : Nat) (isSlowest : slowestNext history.stream = some slowest) (row : StreamConsumer)
    (member : row ∈ history.stream.consumers) : slowest ≤ row.nextChunkSeq := by
  unfold slowestNext at isSlowest
  split at isSlowest
  · rename_i next least
    obtain rfl := Option.some.inj isSlowest
    exact (List.min?_eq_some_iff.mp least).2 _ (List.mem_map.mpr ⟨row, member, rfl⟩)
  · rename_i empty
    rw [List.map_eq_nil_iff.mp (List.min?_eq_none_iff.mp empty)] at member
    cases member

theorem invariant_collect {chunkLimit rowLimit byteLimit : Nat} {stream : EffectStream Row}
    (ok : gcEffectStream history.stream chunkLimit rowLimit byteLimit = .ok stream) :
    StreamInvariant { history with stream := stream } := by
  rcases gc_cases _ _ _ _ _ ok with ⟨_, rfl⟩ | ⟨slowest, isSlowest, rfl⟩
  · exact good
  · refine ⟨⟨good.produced.numbered, good.produced.next, List.filter_sublist.trans good.produced.stored,
      good.produced.ordered, good.produced.data, good.produced.frontiers⟩, good.keys, ?_⟩
    intro row member
    have before := good.consumers row member
    refine ⟨before.within, ?_, before.consumed, before.witnessed, fun risen =>
      ⟨(before.complete risen).later, (before.complete risen).closed⟩⟩
    intro chunk chunkMember ahead
    refine List.mem_filter.mpr ⟨before.retained chunk chunkMember ahead, decide_eq_true ?_⟩
    intro collected
    obtain ⟨garbage, garbageMember, sameSeq⟩ := List.mem_map.mp collected
    have below := (garbage_mem _ _ _ _ _ garbage garbageMember).2
    have slow := slowest_below history slowest isSlowest row member
    omega

section Advance

variable (row : StreamConsumer) (member : row ∈ history.stream.consumers) (advance : ConsumerAdvance)
  (onward : row.nextChunkSeq ≤ advance.newNextChunkSeq) (raised : row.consumedFrontierLsn ≤ advance.newConsumedFrontierLsn)
  (expected : row.nextChunkSeq = advance.expectedNextChunkSeq)
  (causal : frontierFault history.stream history.published row advance = none)

-- The next unconsumed chunk of a source bounds everything behind it.
theorem source_next_bounds {slotGeneration : Nat} {sourceOid : Oid}
    (isSource : history.stream.producer = .source slotGeneration sourceOid) {next : Nat} {bound : Lsn}
    (above : ∀ lsn, nextUnconsumedLsn history.stream next = some lsn → bound < lsn) {chunk : EffectChunk Row}
    (stored : chunk ∈ history.stream.chunks) (ahead : next ≤ chunk.chunkSeq) : bound < chunk.chunkLsn := by
  cases found : history.stream.chunks.find? fun chunk => decide (next ≤ chunk.chunkSeq) with
  | none =>
      have absent := List.find?_eq_none.mp found chunk stored
      simp [ahead] at absent
  | some first =>
      have bounded := above first.chunkLsn (by simp [nextUnconsumedLsn, found])
      obtain ⟨_, earlier, later, split, skipped⟩ := List.find?_eq_some_iff_append.mp found
      rw [split] at stored
      rcases List.mem_append.mp stored with inEarlier | inRest
      · have skip := skipped chunk inEarlier
        simp [ahead] at skip
      · rcases List.mem_cons.mp inRest with rfl | inLater
        · exact bounded
        · have sorted : (history.stream.chunks.map EffectChunk.chunkSeq).Pairwise (· < ·) :=
            (good.produced.numbered ▸ List.pairwise_lt_range').sublist (good.produced.stored.map _)
          rw [split, List.map_append, List.map_cons, List.pairwise_append, List.pairwise_cons] at sorted
          have before := sorted.2.1.1 _ (List.mem_map.mpr ⟨chunk, inLater, rfl⟩)
          have firstMember := good.produced.stored.subset (List.mem_of_find?_eq_some found)
          have chunkMember : chunk ∈ history.produced :=
            good.produced.stored.subset (split ▸ List.mem_append_right _ inRest)
          have order := good.produced.ordered first firstMember chunk chunkMember before
          simp only [ChunkOrder, isSource] at order
          exact Nat.lt_of_lt_of_le bounded order

include member onward raised causal

theorem source_passed (slotGeneration : Nat) (sourceOid : Oid)
    (isSource : history.stream.producer = .source slotGeneration sourceOid)
    (risen : row.activationLsn < advance.newConsumedFrontierLsn) :
    Passed history advance.newNextChunkSeq advance.newConsumedFrontierLsn := by
  have before := good.consumers row member
  simp only [frontierFault, isSource] at causal
  split at causal
  · cases causal
  · rename_i allowed
    have above : ∀ lsn, nextUnconsumedLsn history.stream advance.newNextChunkSeq = some lsn →
        advance.newConsumedFrontierLsn < lsn := by
      intro lsn next
      rw [next] at causal
      simp only at causal
      split at causal
      · cases causal
      · rename_i beyond
        exact Nat.lt_of_not_le beyond
    constructor
    · intro chunk chunkMember _ ahead
      exact source_next_bounds history good isSource above
        (before.retained chunk chunkMember (Nat.le_trans onward ahead)) ahead
    · by_cases moves : row.consumedFrontierLsn < advance.newConsumedFrontierLsn
      · have reached : reachedBy history.published advance.newConsumedFrontierLsn = true := by
          by_contra unreached
          exact allowed ⟨moves, by simpa using unreached⟩
        simpa [closedThrough, isSource] using reached
      · have same : row.consumedFrontierLsn = advance.newConsumedFrontierLsn := Nat.le_antisymm raised (Nat.le_of_not_lt moves)
        rw [← same] at risen ⊢
        exact (before.complete risen).closed

include expected

omit onward in
-- The frontier an operator consumer moves to is the one it had or that of a
-- chunk in its range.
theorem operator_frontier (resultOid : Oid) (stageId : Nat)
    (isOperator : history.stream.producer = .operator resultOid stageId) :
    (advance.newConsumedFrontierLsn = row.consumedFrontierLsn ∨
      ∃ chunk ∈ history.produced, chunk.chunkKind = .frontier ∧ chunk.chunkSeq < advance.newNextChunkSeq ∧
        chunk.chunkLsn = advance.newConsumedFrontierLsn) ∧
      ∀ chunk ∈ history.produced, chunk.chunkKind = .frontier → chunk.chunkSeq < advance.newNextChunkSeq →
        chunk.chunkLsn ≤ advance.newConsumedFrontierLsn := by
  have before := good.consumers row member
  have derived : advance.newConsumedFrontierLsn = derivedOperatorFrontier row.consumedFrontierLsn
      (consumedOperatorFrontier (chunkRange history.stream advance.expectedNextChunkSeq advance.newNextChunkSeq)) := by
    simp only [frontierFault, isOperator] at causal
    split at causal
    · cases causal
    · rename_i same
      exact not_not.mp same
  rw [← expected] at derived
  constructor
  · cases greatest : consumedOperatorFrontier (chunkRange history.stream row.nextChunkSeq advance.newNextChunkSeq) with
    | none => exact .inl (by simpa [derivedOperatorFrontier, greatest] using derived)
    | some frontier =>
        rw [greatest, derivedOperatorFrontier, Option.getD_some] at derived
        rcases Nat.le_total frontier row.consumedFrontierLsn with below | above
        · exact .inl (derived.trans (Nat.max_eq_left below))
        · obtain ⟨chunk, inFilter, rfl⟩ := List.mem_map.mp (List.max?_eq_some_iff.mp greatest).1
          obtain ⟨inRange, isFrontier⟩ := List.mem_filter.mp inFilter
          obtain ⟨stored, bounds⟩ := List.mem_filter.mp inRange
          simp only [Bool.and_eq_true, decide_eq_true_eq] at bounds isFrontier
          exact .inr ⟨chunk, good.produced.stored.subset stored, isFrontier, bounds.2,
            (derived.trans (Nat.max_eq_right above)).symm⟩
  · intro chunk chunkMember isFrontier passed
    rcases Nat.lt_or_ge chunk.chunkSeq row.nextChunkSeq with earlier | inside
    · exact Nat.le_trans (before.consumed chunk chunkMember isFrontier earlier) raised
    · have inRange : chunk ∈ chunkRange history.stream row.nextChunkSeq advance.newNextChunkSeq :=
        List.mem_filter.mpr ⟨before.retained chunk chunkMember inside, by simp [inside, passed]⟩
      have counted : chunk.chunkLsn ∈ (((chunkRange history.stream row.nextChunkSeq advance.newNextChunkSeq).filter
          fun chunk => chunk.chunkKind = .frontier).map EffectChunk.chunkLsn) :=
        List.mem_map.mpr ⟨chunk, List.mem_filter.mpr ⟨inRange, by simp [isFrontier]⟩, rfl⟩
      cases greatest : consumedOperatorFrontier (chunkRange history.stream row.nextChunkSeq advance.newNextChunkSeq) with
      | none =>
          rw [List.max?_eq_none_iff.mp greatest] at counted
          cases counted
      | some frontier =>
          rw [greatest, derivedOperatorFrontier, Option.getD_some] at derived
          rw [derived]
          exact Nat.le_trans ((List.max?_eq_some_iff.mp greatest).2 _ counted) (Nat.le_max_right _ _)

theorem operator_passed (resultOid : Oid) (stageId : Nat)
    (isOperator : history.stream.producer = .operator resultOid stageId)
    (risen : row.activationLsn < advance.newConsumedFrontierLsn) :
    Passed history advance.newNextChunkSeq advance.newConsumedFrontierLsn := by
  have before := good.consumers row member
  rcases (operator_frontier history good row member advance raised expected causal _ _ isOperator).1 with
    same | ⟨frontier, frontierMember, isFrontier, passed, isLsn⟩
  · rw [same] at risen ⊢
    have passed := before.complete risen
    exact ⟨fun chunk chunkMember isData ahead => passed.later chunk chunkMember isData (Nat.le_trans onward ahead),
      passed.closed⟩
  · constructor
    · intro chunk chunkMember _ ahead
      have order := good.produced.ordered frontier frontierMember chunk chunkMember (Nat.lt_of_lt_of_le passed ahead)
      simp only [ChunkOrder, isOperator] at order
      exact isLsn ▸ order.1 isFrontier
    · obtain ⟨_, latest, isLatest, within⟩ := good.produced.frontiers frontier frontierMember isFrontier
      simpa [closedThrough, isOperator, isLatest] using isLsn ▸ within

theorem consumer_advance (within : advance.newNextChunkSeq ≤ history.stream.nextChunkSeq) :
    ConsumerInvariant history { row with
      nextChunkSeq := advance.newNextChunkSeq, consumedFrontierLsn := advance.newConsumedFrontierLsn } := by
  have before := good.consumers row member
  have retained : ∀ chunk ∈ history.produced, advance.newNextChunkSeq ≤ chunk.chunkSeq → chunk ∈ history.stream.chunks :=
    fun chunk chunkMember ahead => before.retained chunk chunkMember (Nat.le_trans onward ahead)
  cases producer : history.stream.producer with
  | source slotGeneration sourceOid =>
      have isSource : history.stream.isSource = true := by simp [EffectStream.isSource, producer, Producer.isSource]
      refine ⟨within, retained, ?_, ?_, ?_⟩
      · intro chunk chunkMember isFrontier _
        have isData := is_source_data good.produced isSource chunkMember
        exact absurd (isData.symm.trans isFrontier) (by simp)
      · intro notSource _
        exact absurd (isSource.symm.trans notSource) (by simp)
      · exact source_passed history good row member advance onward raised causal _ _ producer
  | operator resultOid stageId =>
      obtain ⟨moved, consumed⟩ :=
        operator_frontier history good row member advance raised expected causal _ _ producer
      refine ⟨within, retained, consumed, ?_, ?_⟩
      · intro notSource risen
        rcases moved with same | witness
        · simp only [same] at risen ⊢
          obtain ⟨chunk, chunkMember, isFrontier, passed, isLsn⟩ := before.witnessed notSource risen
          exact ⟨chunk, chunkMember, isFrontier, Nat.lt_of_lt_of_le passed onward, isLsn⟩
        · exact witness
      · exact operator_passed history good row member advance onward raised expected causal _ _ producer

end Advance

theorem invariant_advance {consumer : ConsumerKey} {advance : ConsumerAdvance} {stream : EffectStream Row}
    (ok : advanceEffectStreamConsumer history.stream history.published consumer advance = .ok stream) :
    StreamInvariant { history with stream := stream } := by
  obtain ⟨row, found, valid, sameNext, sameFrontier, within, _, causal, rfl⟩ := advance_cases ok
  have member := List.mem_of_find?_eq_some found
  have named : row.consumer = consumer := by simpa using List.find?_some found
  simp only [validAdvance, Bool.and_eq_true, decide_eq_true_eq] at valid
  obtain ⟨⟨⟨⟨⟨_, onward⟩, raised⟩, _⟩, _⟩, _⟩ := valid
  rw [← sameNext] at onward
  rw [← sameFrontier] at raised
  apply invariant_consumers history good
  · have same : StreamConsumer.consumer ∘ moveConsumer consumer advance = StreamConsumer.consumer := by
      funext other
      simp only [Function.comp_apply, moveConsumer]
      split <;> rfl
    rw [List.map_map, same]
    exact good.keys
  · intro moved movedMember
    obtain ⟨other, otherMember, rfl⟩ := List.mem_map.mp movedMember
    by_cases hit : other.consumer = consumer
    · have isRow : other = row := List.inj_on_of_nodup_map good.keys otherMember member (hit.trans named.symm)
      subst isRow
      rw [moveConsumer, if_pos hit]
      exact consumer_advance history good other member advance onward raised sameNext causal within
    · simp only [moveConsumer, hit, if_false]
      exact good.consumers other otherMember

end Step

theorem invariant_step {history after : StreamHistory Row} {op : StreamOp Row} (good : StreamInvariant history)
    (ok : historyStep history op = .ok after) : StreamInvariant after := by
  cases op with
  | append expected kind rowCount payloadBytes chunkLsn payload =>
      rcases append_history_cases rowCount payloadBytes payload ok with
        rfl | ⟨causal, _, rfl⟩
      · exact good
      · exact ⟨produced_append rowCount payloadBytes payload causal good.produced, good.keys,
          fun row member => consumer_append rowCount payloadBytes payload causal row (good.consumers row member)⟩
  | attach facts consumer activationLsn =>
      obtain ⟨stream, made, rfl⟩ := except_map_ok ok
      exact invariant_attach history good made
  | advance consumer move =>
      obtain ⟨stream, made, rfl⟩ := except_map_ok ok
      exact invariant_advance history good made
  | publish lsn =>
      obtain rfl := Except.ok.inj ok
      exact invariant_publish history good lsn
  | collect chunkLimit rowLimit byteLimit =>
      obtain ⟨stream, made, rfl⟩ := except_map_ok ok
      exact invariant_collect history good made
  | dropResult resultOid =>
      obtain rfl := Except.ok.inj ok
      exact invariant_drop history good resultOid

theorem invariant_reachable (history : StreamHistory Row) (reached : Reachable historyStep Fresh history) :
    StreamInvariant history :=
  reachable_invariant StreamInvariant stream_invariant_fresh
    (fun _ _ _ good taken => invariant_step good taken) history reached

-- A closed LSN stays closed: no later step produces data at or below it.
theorem passed_step {history after : StreamHistory Row} {op : StreamOp Row} (ok : historyStep history op = .ok after)
    {next : Nat} {frontier : Lsn} (passed : Passed history next frontier) : Passed after next frontier := by
  cases op with
  | append expected kind rowCount payloadBytes chunkLsn payload =>
      rcases append_history_cases rowCount payloadBytes payload ok with
        rfl | ⟨causal, _, rfl⟩
      · exact passed
      · exact passed_append rowCount payloadBytes payload causal next frontier passed
  | attach facts consumer activationLsn =>
      obtain ⟨stream, made, rfl⟩ := except_map_ok ok
      obtain ⟨_, _, rfl⟩ := attach_cases made
      exact ⟨passed.later, passed.closed⟩
  | advance consumer move =>
      obtain ⟨stream, made, rfl⟩ := except_map_ok ok
      obtain ⟨_, _, _, _, _, _, _, _, rfl⟩ := advance_cases made
      exact ⟨passed.later, passed.closed⟩
  | publish lsn =>
      obtain rfl := Except.ok.inj ok
      exact passed_publish lsn passed
  | collect chunkLimit rowLimit byteLimit =>
      obtain ⟨stream, made, rfl⟩ := except_map_ok ok
      rcases gc_cases _ _ _ _ _ made with ⟨_, rfl⟩ | ⟨slowest, _, rfl⟩
      · exact passed
      · exact ⟨passed.later, passed.closed⟩
  | dropResult resultOid =>
      obtain rfl := Except.ok.inj ok
      exact ⟨passed.later, passed.closed⟩

def anyStep (_ : StreamHistory Row) (_ : StreamOp Row) : Prop := True

theorem passed_path (history later : StreamHistory Row) (ran : Path historyStep anyStep history later) (next : Nat)
    (frontier : Lsn) (passed : Passed history next frontier) : Passed later next frontier :=
  path_invariant (fun state => Passed state next frontier)
    (fun _ _ _ before _ taken => passed_step taken before) history later passed ran

-- Once a consumer has passed its activation boundary, its frontier is complete:
-- in this state and every later one no data at or after its cursor lies at or
-- below it. A consumed frontier chunk covers all data before it, and the
-- frontier of an operator consumer is the one of such a chunk.
theorem frontier_complete (history : StreamHistory Row) (reached : Reachable historyStep Fresh history)
    (row : StreamConsumer) (member : row ∈ history.stream.consumers) :
    (row.activationLsn < row.consumedFrontierLsn → ∀ later, Path historyStep anyStep history later →
        ∀ chunk ∈ later.produced, chunk.chunkKind = .data → row.nextChunkSeq ≤ chunk.chunkSeq →
          row.consumedFrontierLsn < chunk.chunkLsn) ∧
      (∀ frontier ∈ history.produced, frontier.chunkKind = .frontier → frontier.chunkSeq < row.nextChunkSeq →
        frontier.chunkLsn ≤ row.consumedFrontierLsn ∧
          ∀ chunk ∈ history.produced, chunk.chunkKind = .data → chunk.chunkSeq < frontier.chunkSeq →
            chunk.chunkLsn ≤ frontier.chunkLsn) ∧
      (history.stream.isSource = false → row.activationLsn < row.consumedFrontierLsn →
        ∃ frontier ∈ history.produced, frontier.chunkKind = .frontier ∧ frontier.chunkSeq < row.nextChunkSeq ∧
          frontier.chunkLsn = row.consumedFrontierLsn) ∧
      ∀ chunk ∈ history.stream.chunks, chunk ∈ history.produced := by
  have good := invariant_reachable history reached
  have consumer := good.consumers row member
  refine ⟨?_, ?_, consumer.witnessed, fun chunk stored => good.produced.stored.subset stored⟩
  · intro risen later ran
    exact (passed_path history later ran _ _ (consumer.complete risen)).later
  · intro frontier frontierMember isFrontier passed
    refine ⟨consumer.consumed frontier frontierMember isFrontier passed, ?_⟩
    intro chunk chunkMember _ before
    have order := good.produced.ordered chunk chunkMember frontier frontierMember before
    have operator := (good.produced.frontiers frontier frontierMember isFrontier).1
    cases producer : history.stream.producer with
    | source slotGeneration sourceOid => simp [EffectStream.isSource, producer, Producer.isSource] at operator
    | operator resultOid stageId =>
        simp only [ChunkOrder, producer] at order
        exact order.2 isFrontier

def smallLimits : StreamLimits := ⟨8, 64, 8, 64, 512, 2, 16, 128⟩

def scanConsumer : ConsumerKey := ⟨900, 1, 0⟩

def sourceStart (published : Option Lsn) : StreamHistory Nat := ⟨freshStream smallLimits 1 (.source 1 100), published, []⟩

-- A consumer attached at 0/5, then a chunk, the frontier up to it and the advance over it.
def advancedConsumer : StreamHistory Nat :=
  attempts historyStep (sourceStart none)
    [.attach ⟨true, false⟩ scanConsumer 5, .append 1 .data 1 9 7 [⟨1, 3⟩], .publish 7,
      .advance scanConsumer ⟨1, 2, 5, 7, 4, 64, 512⟩]

def laterConsumer : StreamHistory Nat := attempts historyStep advancedConsumer [.append 2 .data 1 9 9 [⟨1, 4⟩]]

theorem frontier_complete_advanced : ∃ chunk ∈ laterConsumer.produced, chunk.chunkSeq = 2 ∧ 7 < chunk.chunkLsn :=
  ⟨⟨2, .data, 1, 9, 9, [⟨1, 4⟩]⟩, by decide, rfl,
    (frontier_complete advancedConsumer (reachable_attempts _ _ (.start _ ⟨smallLimits, 1, _, none, rfl⟩))
      ⟨scanConsumer, 2, 5, 7⟩ (by decide)).1 (by decide) laterConsumer
      (.next advancedConsumer laterConsumer (.append 2 .data 1 9 9 [⟨1, 4⟩]) .here trivial rfl) _ (by decide) rfl (by decide)⟩

-- The backlog of a source: a chunk below the activation boundary reaches a
-- consumer whose frontier already stands there.
def backlogConsumer : StreamHistory Nat :=
  attempts historyStep (sourceStart none)
    [.attach ⟨true, false⟩ scanConsumer 10, .append 1 .data 1 9 7 [⟨1, 3⟩]]

theorem backlog_behind_frontier :
    Reachable historyStep Fresh backlogConsumer ∧
      ∃ row ∈ backlogConsumer.stream.consumers, ∃ chunk ∈ backlogConsumer.stream.chunks,
        chunk.chunkKind = .data ∧ row.nextChunkSeq ≤ chunk.chunkSeq ∧ chunk.chunkLsn ≤ row.consumedFrontierLsn :=
  ⟨reachable_attempts _ _ (.start _ ⟨smallLimits, 1, _, none, rfl⟩),
    ⟨scanConsumer, 1, 10, 10⟩, by decide, ⟨1, .data, 1, 9, 7, [⟨1, 3⟩]⟩, by decide, by decide, by decide, by decide⟩

end Shiba.Stream
