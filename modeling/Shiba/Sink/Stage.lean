import Shiba.Sink.Pages

set_option autoImplicit false

namespace Shiba.Sink

open Copies Weighted Shiba.Stream Shiba.Execution Transition Shiba.Linear Shiba.Linear.Transform

section

variable {Row Out : Type} [DecidableEq Out]

-- No row is retracted more often than the result holds it.
def Holds (result : List Out) (effects : List (Out × Int)) : Prop :=
  ∀ item, weight (retractions effects) item ≤ (result.count item : Int)

def mutatedResult (result : List Out) (effects : List (Out × Int)) : List Out :=
  beyond (weight (retractions effects)) result ++ expanded (effects.filter fun effect => decide (0 < effect.2))

theorem victims_below (effects : List (Out × Int)) (target : Out × Nat) :
    isVictim (placed (retractions effects)) target =
      decide ((target.2 : Int) < weight (retractions effects) target.1) := by
  have covers := placed_covers (retractions effects) (retractions_positive effects) target.1 target.2
  rw [Bool.eq_iff_iff, decide_eq_true_iff, ← covers]
  simp only [isVictim, List.any_eq_true, Bool.and_eq_true, decide_eq_true_eq, and_assoc]

section Page

variable (result : List Out) (actions : List SinkAction) (effects : List (Out × Int))
  (some : actions ≠ []) (signed : ∀ action ∈ actions, action.appliedWeight ≠ 0)

include some signed in
theorem mutate_ok : mutateResultPage result actions effects = .ok (mutatedResult result effects,
    (expanded (effects.filter fun effect => decide (0 < effect.2))).length +
      (below (weight (retractions effects)) result).length) := by
  have present : actions.isEmpty = false := by simpa using some
  have nonzero : (actions.any fun action => decide (action.appliedWeight = 0)) = false := by simpa using signed
  have deleted : (ranked result).filter (isVictim (placed (retractions effects))) =
      (ranked result).filter fun target => decide ((target.2 : Int) < weight (retractions effects) target.1) :=
    List.filter_congr fun target _ => victims_below effects target
  have kept : ((ranked result).filter fun target => !isVictim (placed (retractions effects)) target) =
      (ranked result).filter fun target => !decide ((target.2 : Int) < weight (retractions effects) target.1) :=
    List.filter_congr fun target _ => congrArg (!·) (victims_below effects target)
  unfold mutateResultPage
  simp only [present, nonzero, Bool.or_self, not_refused, ok_bind, deleted, kept]
  simp only [mutatedResult, below, beyond, List.length_map, pure, Except.pure]

-- The count the statement returns is the planned one exactly when every
-- retraction finds its row.
theorem mutated_all (changing : ∀ effect ∈ effects, effect.2 ≠ 0) :
    (expanded (effects.filter fun effect => decide (0 < effect.2))).length +
    (below (weight (retractions effects)) result).length = units effects ↔ Holds result effects := by
  have complete := below_complete (retractions effects)
    (fun request member => Int.le_of_lt (retractions_positive effects request member)) result
  have parts := units_parts effects changing
  unfold Holds
  rw [← complete]
  omega

-- Then the result has changed by just the weights of the page.
theorem mutated_count (holds : Holds result effects) (item : Out) :
    ((mutatedResult result effects).count item : Int) = result.count item + weight effects item := by
  have enough := holds item
  have natural := weight_retractions_nonneg effects item
  have parts := weight_parts effects item
  have inserted := count_expanded (effects.filter fun effect => decide (0 < effect.2))
    (fun effect member => Int.le_of_lt (of_decide_eq_true (List.mem_filter.mp member).2)) item
  unfold mutatedResult
  rw [List.count_append, count_beyond]
  omega

end Page

end

variable {Row Out : Type}

-- What happens around one Sink: its input stream is written, read by others
-- and collected, and the stage steps.
inductive SinkCall (Row : Type) (key : ConsumerKey) where
  | source (op : StreamOp Row) (other : OtherConsumer key op)
  | step (budget : WorkBudget)

def sinkStep [DecidableEq Out] (spec : SinkSpec Row Out) (key : ConsumerKey) (tables : SinkTables Row Out) :
    SinkCall Row key → Except Fault (SinkTables Row Out)
  | .source op _ => (historyStep tables.input op).map fun input => { tables with input }
  | .step budget => stepSink spec tables key budget

-- The payload relation checks that no weight is zero.
def Signed : StreamOp Row → Prop
  | .append _ _ _ _ _ payload => ∀ row ∈ payload, row.weight ≠ 0
  | _ => True

def Feeds (spec : SinkSpec Row Out) (key : ConsumerKey) (tables : SinkTables Row Out) : SinkCall Row key → Prop
  | .source op _ => ProducerOp spec.scanPlaceholder tables.input op ∧ Signed op
  | .step _ => True

-- A reachable operator stream that the stage was just attached to, and an empty
-- result.
structure SinkRegistered (key : ConsumerKey) (tables : SinkTables Row Out) : Prop where
  input : ∃ before facts activationLsn, Reachable historyStep Fresh before ∧
    historyStep before (.attach facts key activationLsn) = .ok tables.input
  operator : tables.input.stream.isSource = false
  streamId : 0 < tables.input.stream.streamId
  output : tables.output = noOutput
  continuation : tables.continuation = none
  checkpoint : tables.hasContinuation = false
  result : tables.state = []

structure SinkChunk (spec : SinkSpec Row Out) (chunk : EffectChunk Row) : Prop where
  counted : StoredChunk spec.scanPlaceholder chunk
  signed : ∀ row ∈ chunk.payload, row.weight ≠ 0

-- What has been applied of the row a page ended in.
def openPart (spec : SinkSpec Row Out) (history : StreamHistory Row) (next ordinal : Nat) :
    Option Int → List (Out × Int)
  | none => []
  | some rest => (((history.produced[next - 1]?.map EffectChunk.payload).getD [])[ordinal]?).toList.map
      fun row => (spec.mapping row.rowValue, row.weight - rest)

-- The weights before a position: those of whole chunks, of rows of the next
-- one, and what has been applied of the row there.
def appliedWeights (spec : SinkSpec Row Out) (history : StreamHistory Row) (next ordinal : Nat) (remaining : Option Int) :
    List (Out × Int) :=
  (readRows history next ordinal).map (effectOf spec) ++ openPart spec history next ordinal remaining

section Invariant

variable [DecidableEq Out]

-- The Sink has applied its input up to a continuation, and its result is the
-- bag of just that.
structure Applying (spec : SinkSpec Row Out) (tables : SinkTables Row Out) (row : StreamConsumer)
    (continuation : SinkContinuation) : Prop where
  position : continuation.position =
    ⟨tables.input.stream.streamId, row.nextChunkSeq, continuation.position.rowOrdinal⟩
  saved : tables.continuation = if continuation.persisted then some (continuationArguments continuation) else none
  fresh : continuation.persisted = false → continuation.position.rowOrdinal = 0 ∧ continuation.remainingWeight = none
  inside : continuation.persisted = true → ∃ chunk ∈ tables.input.produced, chunk.chunkSeq = row.nextChunkSeq ∧
    chunk.chunkKind = .data ∧ CursorIn tables.input.stream.streamId chunk continuation
  held : ∀ item, (tables.state.count item : Int) = weight (appliedWeights spec tables.input row.nextChunkSeq
    continuation.position.rowOrdinal continuation.remainingWeight) item

structure SinkInvariant (spec : SinkSpec Row Out) (key : ConsumerKey) (tables : SinkTables Row Out) : Prop where
  input : StreamInvariant tables.input
  operator : tables.input.stream.isSource = false
  streamId : 0 < tables.input.stream.streamId
  stored : ∀ chunk ∈ tables.input.produced, SinkChunk spec chunk
  output : tables.output = noOutput
  checkpoint : tables.hasContinuation = tables.continuation.isSome
  consumer : ∃ row ∈ tables.input.stream.consumers, row.consumer = key ∧ 1 ≤ row.nextChunkSeq ∧ row.activationLsn = 0 ∧
    ∃ continuation, Applying spec tables row continuation

end Invariant

theorem signed_step {history after : StreamHistory Row} {op : StreamOp Row} (signed : Signed op)
    (ok : historyStep history op = .ok after) {chunk : EffectChunk Row} (produced : chunk ∈ after.produced) :
    chunk ∈ history.produced ∨ ∀ row ∈ chunk.payload, row.weight ≠ 0 := by
  cases op with
  | append expected kind rowCount payloadBytes chunkLsn payload =>
      rcases append_history_cases rowCount payloadBytes payload ok with
        rfl | ⟨_, _, rfl⟩
      · exact .inl produced
      · rcases List.mem_append.mp produced with old | new
        · exact .inl old
        · obtain rfl := List.mem_singleton.mp new
          exact .inr signed
  | attach facts consumer activationLsn | advance consumer move | collect chunkLimit rowLimit byteLimit =>
      obtain ⟨stream, made, rfl⟩ := except_map_ok ok
      exact .inl produced
  | publish lsn | dropResult resultOid =>
      obtain rfl := Except.ok.inj ok
      exact .inl produced

-- What was applied does not change when the stream grows.
theorem applied_grow (spec : SinkSpec Row Out) {history grown : StreamHistory Row} {more : List (EffectChunk Row)}
    (isGrown : grown.produced = history.produced ++ more) {next ordinal : Nat} {remaining : Option Int}
    (within : next ≤ history.produced.length + 1) (first : 1 ≤ next)
    (inside : ordinal ≠ 0 ∨ remaining ≠ none → next ≤ history.produced.length) :
    appliedWeights spec grown next ordinal remaining = appliedWeights spec history next ordinal remaining := by
  unfold appliedWeights
  rw [read_rows_grow history more grown isGrown next ordinal within (fun started => inside (.inl started)) first]
  cases remaining with
  | none => rfl
  | some rest =>
      have below := inside (.inr (by simp))
      unfold openPart
      rw [isGrown, List.getElem?_append_left (by omega)]

section Around

variable [DecidableEq Out] (spec : SinkSpec Row Out) (key : ConsumerKey) (tables : SinkTables Row Out)

theorem sink_source_keeps (good : SinkInvariant spec key tables) (op : StreamOp Row) (other : OtherConsumer key op)
    (produces : ProducerOp spec.scanPlaceholder tables.input op) (signed : Signed op) (input : StreamHistory Row)
    (ok : historyStep tables.input op = .ok input) : SinkInvariant spec key { tables with input := input } := by
  have kept := stream_step_keeps ok
  obtain ⟨more, grown, fresh, _⟩ := stored_step produces ok
  obtain ⟨row, member, named, first, flat, continuation, applying⟩ := good.consumer
  have within := (good.input.consumers row member).within
  have length := good.input.produced.next
  refine ⟨invariant_step good.input ok, ?_, ?_, ?_, good.output, good.checkpoint, row,
    consumer_kept other ok member named, named, first, flat, continuation, ?_⟩
  · have operator := good.operator
    unfold EffectStream.isSource at operator ⊢
    rwa [kept.producer]
  · rw [kept.streamId]
    exact good.streamId
  · intro chunk produced
    rcases signed_step signed ok produced with old | isSigned
    · exact good.stored chunk old
    · rw [grown] at produced
      rcases List.mem_append.mp produced with old | new
      · exact good.stored chunk old
      · exact ⟨(fresh chunk new).1, isSigned⟩
  · refine ⟨?_, applying.saved, applying.fresh, ?_, ?_⟩
    · rw [kept.streamId]
      exact applying.position
    · intro persisted
      obtain ⟨chunk, produced, rest⟩ := applying.inside persisted
      rw [kept.streamId]
      exact ⟨chunk, kept.produced chunk produced, rest⟩
    · intro item
      change (tables.state.count item : Int) = weight (appliedWeights spec input _ _ _) item
      rw [applied_grow spec grown (by omega) first ?_]
      · exact applying.held item
      · intro started
        have persisted : continuation.persisted = true := by
          by_contra unsaved
          obtain ⟨start, none⟩ := applying.fresh (Bool.eq_false_iff.mpr unsaved)
          rcases started with moved | begun
          · exact moved start
          · exact begun none
        obtain ⟨chunk, produced, atCursor, _⟩ := applying.inside persisted
        have below := produced_below tables.input good.input.produced chunk produced
        omega

theorem sink_registered_invariant (registered : SinkRegistered key tables) :
    SinkInvariant spec key tables ∧ tables.input.produced = [] := by
  obtain ⟨kept, nothing, member⟩ := attached_input registered.operator registered.input
  refine ⟨⟨kept, registered.operator, registered.streamId, ?_, registered.output, ?_, ⟨key, 1, 0, 0⟩, member, rfl,
    Nat.le_refl 1, rfl, ⟨⟨tables.input.stream.streamId, 1, 0⟩, none, false⟩, ?_⟩, nothing⟩
  · rw [nothing]
    intro chunk inside
    cases inside
  · rw [registered.checkpoint, registered.continuation]
    rfl
  · refine ⟨rfl, registered.continuation, fun _ => ⟨rfl, rfl⟩, ?_, ?_⟩
    · intro persisted
      cases persisted
    · intro item
      rw [registered.result]
      simp [appliedWeights, readRows, nothing, openPart]

end Around

end Shiba.Sink
