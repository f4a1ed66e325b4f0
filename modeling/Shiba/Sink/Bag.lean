import Shiba.Sink.Steps

set_option autoImplicit false

namespace Shiba.Sink

open Copies Weighted Transition Shiba.Stream Shiba.Execution Shiba.Linear Shiba.Linear.Transform

variable {Row Out : Type}

-- The rows of the chunk at a position.
def chunkRows (history : StreamHistory Row) (next : Nat) : List (EffectRow Row) :=
  (history.produced[next - 1]?.map EffectChunk.payload).getD []

def ordinalOf (tables : SinkTables Row Out) : Nat := (tables.continuation.map ContinuationRow.rowOrdinal).getD 0

def remainingOf (tables : SinkTables Row Out) : Option Int := tables.continuation.bind ContinuationRow.remainingWeight

-- The copies the chunk at the cursor has still to insert or delete.
def pendingUnits (spec : SinkSpec Row Out) (tables : SinkTables Row Out) (row : StreamConsumer) : Nat :=
  units (pendingOf spec (remainingOf tables) ((chunkRows tables.input row.nextChunkSeq).drop (ordinalOf tables)))

-- Further inside the chunk at the cursor, or at the start of the next one.
def Onward (spec : SinkSpec Row Out) (tables : SinkTables Row Out) (row : StreamConsumer) (after : SinkTables Row Out)
    (next : StreamConsumer) : Prop :=
  (next.nextChunkSeq = row.nextChunkSeq ∧ pendingUnits spec after next < pendingUnits spec tables row) ∨
    (next.nextChunkSeq = row.nextChunkSeq + 1 ∧ after.continuation = none)

-- The weights of every row before a position of a chunk.
def weightsBefore (spec : SinkSpec Row Out) (history : StreamHistory Row) (next ordinal : Nat) : List (Out × Int) :=
  (readRows history next ordinal).map (effectOf spec)

section Weights

variable [DecidableEq Out] (spec : SinkSpec Row Out) (history : StreamHistory Row) (good : StreamInvariant history)
  (chunk : EffectChunk Row) (produced : chunk ∈ history.produced)

include good produced

theorem chunk_rows_at : chunkRows history chunk.chunkSeq = chunk.payload := by
  unfold chunkRows
  rw [(produced_at good produced).2]
  rfl

-- What is applied of a chunk and what is left of it make up the chunk.
theorem applied_and_left (ordinal : Nat) (remaining : Option Int) (inside : ordinal < chunk.payload.length) (item : Out) :
    weight (appliedWeights spec history chunk.chunkSeq ordinal remaining) item +
      weight (pendingOf spec remaining (chunk.payload.drop ordinal)) item =
        weight (weightsBefore spec history (chunk.chunkSeq + 1) 0) item := by
  unfold weightsBefore
  rw [read_rows_past good produced ordinal, List.map_append, weight_append, appliedWeights, weight_append,
    List.drop_eq_getElem_cons inside]
  simp only [pendingOf, List.map_cons, weight_cons, effectOf]
  cases remaining with
  | none =>
      simp only [openPart, weight_nil, Option.getD_none]
      omega
  | some rest =>
      have atRow := chunk_rows_at history good chunk produced
      unfold chunkRows at atRow
      simp only [openPart, atRow, List.getElem?_eq_getElem inside, Option.toList_some, List.map_cons, List.map_nil,
        weight_cons, weight_nil, Option.getD_some]
      split
      · omega
      · omega

omit good produced [DecidableEq Out] in
theorem applied_start (next : Nat) : appliedWeights spec history next 0 none = weightsBefore spec history next 0 := by
  simp [appliedWeights, openPart, weightsBefore]

omit good produced [DecidableEq Out] in
theorem applied_whole (next ordinal : Nat) :
    appliedWeights spec history next ordinal none = weightsBefore spec history next ordinal := by
  simp [appliedWeights, openPart, weightsBefore]

end Weights

section After

variable [DecidableEq Out] {spec : SinkSpec Row Out} {key : ConsumerKey} {tables : SinkTables Row Out}
  {budget : WorkBudget} {row : StreamConsumer} {continuation : SinkContinuation} {chunk : EffectChunk Row}
  (here : AtChunk spec key tables row continuation chunk)

include here

theorem moved_input_good : StreamInvariant (movedInput tables.input key row (row.nextChunkSeq + 1)
    (carriedFrontier row chunk) ⟨chunk.rowCount, chunk.payloadBytes, 0, 0⟩) := by
  have good := here.stands.good
  exact moved_input_invariant good.input here.stands.found _ _ _ (cursor_move_fits here)
    (operator_move_causal good.input good.operator here.stored here.atCursor _)

def passedRow (row : StreamConsumer) (chunk : EffectChunk Row) : StreamConsumer :=
  { row with nextChunkSeq := row.nextChunkSeq + 1, consumedFrontierLsn := carriedFrontier row chunk }

def freshAt (tables : SinkTables Row Out) (next : Nat) : SinkContinuation :=
  ⟨⟨tables.input.stream.streamId, next, 0⟩, none, false⟩

-- Past a chunk the Sink stands at the start of the next one.
theorem passed_stands (result : List Out) (held : ∀ item, (result.count item : Int) =
    weight (weightsBefore spec tables.input (row.nextChunkSeq + 1) 0) item) :
    Stands spec key (passedTables tables key row chunk result) (passedRow row chunk)
      (freshAt tables (row.nextChunkSeq + 1)) := by
  obtain ⟨good, found, first, flat, applying⟩ := here.stands
  obtain ⟨_, named⟩ := found_consumer tables.input key row found
  have input := moved_input_good here
  have member := moved_consumer found (row.nextChunkSeq + 1) (carriedFrontier row chunk)
    ⟨chunk.rowCount, chunk.payloadBytes, 0, 0⟩
  have applied : Applying spec (passedTables tables key row chunk result) (passedRow row chunk)
      (freshAt tables (row.nextChunkSeq + 1)) := by
    refine ⟨rfl, rfl, fun _ => ⟨rfl, rfl⟩, fun persisted => (Bool.noConfusion persisted), ?_⟩
    intro item
    exact (held item).trans (congrArg (weight · item) (applied_start spec tables.input (row.nextChunkSeq + 1)).symm)
  exact ⟨⟨input, good.operator, good.streamId, good.stored, good.output, rfl, _, member, named, Nat.le_succ_of_le first, flat,
    _, applied⟩, consumer_found input member named, Nat.le_succ_of_le first, flat, applied⟩

theorem inside_stands (next : SinkContinuation) (result : List Out) (kind : chunk.chunkKind = .data)
    (cursor : CursorIn tables.input.stream.streamId chunk next) (persisted : next.persisted = true)
    (held : ∀ item, (result.count item : Int) = weight (appliedWeights spec tables.input row.nextChunkSeq
      next.position.rowOrdinal next.remainingWeight) item) :
    Stands spec key (insideTables tables next result) row next := by
  have ⟨good, found, first, flat, applying⟩ := here.stands
  obtain ⟨member, named⟩ := found_consumer tables.input key row found
  have applied : Applying spec (insideTables tables next result) row next := by
    refine ⟨?_, ?_, ?_, ?_, held⟩
    · exact cursor.position.trans (here.atCursor ▸ rfl)
    · rw [persisted]
      rfl
    · intro unsaved
      rw [persisted] at unsaved
      cases unsaved
    · intro _
      exact ⟨chunk, good.input.produced.stored.subset here.stored, here.atCursor, kind, cursor⟩
  exact ⟨⟨good.input, good.operator, good.streamId, good.stored, good.output, rfl, row, member, named, first, flat, next,
    applied⟩, found, first, flat, applied⟩

-- What the tables say of the position is what the Sink stands at.
omit here in
theorem position_of (stands : Stands spec key tables row continuation) :
    ordinalOf tables = continuation.position.rowOrdinal ∧ remainingOf tables = continuation.remainingWeight := by
  unfold ordinalOf remainingOf
  rw [stands.applying.saved]
  cases persisted : continuation.persisted with
  | true => exact ⟨rfl, rfl⟩
  | false =>
      obtain ⟨start, whole⟩ := stands.applying.fresh persisted
      exact ⟨start.symm, whole.symm⟩

theorem pending_here_units : pendingUnits spec tables row =
    units (leftOf spec chunk (some continuation)) := by
  obtain ⟨ordinal, remaining⟩ := position_of here.stands
  have rows := chunk_rows_at tables.input here.stands.good.input chunk (chunk_produced here)
  unfold pendingUnits leftOf
  rw [ordinal, remaining, ← here.atCursor, rows]

section Data

variable (kind : chunk.chunkKind = .data) {actions : List SinkAction} {quantum : WorkQuantum}
  {next : Option SinkContinuation}
  (paged : Paged spec tables.input.stream.streamId budget continuation chunk actions quantum next)
  (holds : Holds tables.state (effectsOf spec chunk actions))

include kind paged holds

-- The result after a page is the bag of what is applied then.
theorem page_held (item : Out) : ((mutatedResult tables.state (effectsOf spec chunk actions)).count item : Int) +
    weight (leftOf spec chunk next) item = weight (weightsBefore spec tables.input (row.nextChunkSeq + 1) 0) item := by
  have cursor := cursor_inside here kind
  have counted := mutated_count tables.state (effectsOf spec chunk actions) holds item
  have cut := cut_weight _ _ _ paged.planned.cut item
  have before := applied_and_left spec tables.input here.stands.good.input chunk (chunk_produced here) _
    continuation.remainingWeight cursor.inside item
  have held := here.stands.applying.held item
  rw [here.atCursor] at before
  omega

theorem page_stands_none (isNext : next = none) : Stands spec key
    (passedTables tables key row chunk (mutatedResult tables.state (effectsOf spec chunk actions))) (passedRow row chunk)
      (freshAt tables (row.nextChunkSeq + 1)) := by
  apply passed_stands here
  intro item
  have held := page_held here kind paged holds item
  rw [isNext] at held
  exact (Int.add_zero _).symm.trans held

theorem page_stands_some (onward : SinkContinuation) (isNext : next = some onward) : Stands spec key
    (insideTables tables onward (mutatedResult tables.state (effectsOf spec chunk actions))) row onward := by
  obtain ⟨cursor, ⟨none, _⟩ | persisted⟩ := paged.planned.inside onward isNext
  · exact absurd none paged.some
  · apply inside_stands here onward _ kind cursor persisted
    intro item
    have held := page_held here kind paged holds item
    have after := applied_and_left spec tables.input here.stands.good.input chunk (chunk_produced here) _
      onward.remainingWeight cursor.inside item
    rw [here.atCursor, ← held, isNext] at after
    have isLeft : leftOf spec chunk (some onward) =
        pendingOf spec onward.remainingWeight (chunk.payload.drop onward.position.rowOrdinal) := rfl
    rw [isLeft] at after
    omega

omit holds kind here [DecidableEq Out] in
theorem page_units_lower : units (leftOf spec chunk next) < units (leftOf spec chunk (some continuation)) := by
  have cut := paged.planned.cut
  have parts := cut_units _ _ _ cut
  have present := cut_present _ _ _ cut
  have moved : 0 < units (effectsOf spec chunk actions) := by
    obtain ⟨effect, effects, isEffects⟩ := List.exists_cons_of_ne_nil (paged.planned.effective paged.some)
    have nonzero := Int.natAbs_pos.mpr (present effect (isEffects ▸ List.mem_cons_self))
    rw [isEffects, units, List.map_cons, List.sum_cons]
    omega
  change _ < units (pendingOf spec continuation.remainingWeight (chunk.payload.drop continuation.position.rowOrdinal))
  omega

end Data

-- A frontier changes nothing of the result.
theorem frontier_stands (kind : chunk.chunkKind = .frontier) : Stands spec key
    (passedTables tables key row chunk tables.state) (passedRow row chunk) (freshAt tables (row.nextChunkSeq + 1)) := by
  obtain ⟨_, start, whole⟩ := frontier_start here kind
  have good := here.stands.good
  apply passed_stands here tables.state
  intro item
  have rows := read_rows_past good.input (chunk_produced here) 0
  rw [(good.stored chunk (chunk_produced here)).counted.empty kind, List.drop_nil, List.append_nil, here.atCursor] at rows
  have held := here.stands.applying.held item
  rw [start, whole, applied_start] at held
  rw [held, weightsBefore, weightsBefore, rows]

-- A step that commits moves on inside the chunk, or past it.
theorem step_onward (after : SinkTables Row Out) (ok : stepSink spec tables key budget = .ok after) :
    ∃ next onward, Stands spec key after next onward ∧ Onward spec tables row after next ∧
      after.input.produced = tables.input.produced := by
  cases kind : chunk.chunkKind with
  | data =>
      obtain ⟨actions, quantum, goesOn, paged⟩ := page_planned budget here kind
      have holds := step_data_needs here kind paged after ok
      rw [step_data here kind paged holds] at ok
      obtain rfl := Except.ok.inj ok
      cases isNext : goesOn with
      | none => exact ⟨_, _, page_stands_none here kind paged holds isNext, .inr ⟨rfl, rfl⟩, rfl⟩
      | some onward =>
          have stands := page_stands_some here kind paged holds onward isNext
          have there : AtChunk spec key _ row onward chunk := ⟨stands, here.stored, here.atCursor⟩
          refine ⟨row, onward, stands, .inl ⟨rfl, ?_⟩, rfl⟩
          have lower := page_units_lower paged
          rw [isNext] at lower
          rw [pending_here_units here]
          exact Nat.lt_of_le_of_lt (Nat.le_of_eq (pending_here_units there)) lower
  | frontier =>
      rw [step_frontier budget here kind] at ok
      obtain rfl := Except.ok.inj ok
      exact ⟨_, _, frontier_stands here kind, .inr ⟨rfl, rfl⟩, rfl⟩

end After

-- At every position inside every chunk each row's weights so far cover its
-- retractions in the rest of the chunk.
def Covered [DecidableEq Out] (spec : SinkSpec Row Out) (history : StreamHistory Row) : Prop :=
  ∀ chunk ∈ history.produced, ∀ ordinal item,
    weight (retractions ((chunk.payload.drop ordinal).map (effectOf spec))) item ≤
      weight (weightsBefore spec history chunk.chunkSeq ordinal) item

section Covered

variable [DecidableEq Out] (spec : SinkSpec Row Out) (history : StreamHistory Row) (good : StreamInvariant history)

theorem covered_prefix (grown : StreamHistory Row) (covered : Covered spec grown)
    (isPrefix : history.produced <+: grown.produced) (good : StreamInvariant history) : Covered spec history := by
  obtain ⟨more, isGrown⟩ := isPrefix
  intro chunk produced ordinal item
  have inGrown : chunk ∈ grown.produced := isGrown ▸ List.mem_append_left _ produced
  have before := covered chunk inGrown ordinal item
  have sameRows : readRows grown chunk.chunkSeq ordinal = readRows history chunk.chunkSeq ordinal := by
    have below := produced_below history good.produced chunk produced
    have length := good.produced.next
    have positive := (produced_at good produced).1
    exact read_rows_grow history more grown isGrown.symm _ _ (by omega) (fun _ => by omega) positive
  unfold weightsBefore at before ⊢
  rwa [sameRows] at before

include good

-- Then the result covers what a page may retract, wherever the page starts.
theorem left_covered (covered : Covered spec history) (chunk : EffectChunk Row) (produced : chunk ∈ history.produced)
    (streamId : Nat) (continuation : SinkContinuation) (cursor : CursorIn streamId chunk continuation) (item : Out) :
    weight (retractions (leftOf spec chunk (some continuation))) item ≤
      weight (appliedWeights spec history chunk.chunkSeq continuation.position.rowOrdinal continuation.remainingWeight)
        item := by
  have before := covered chunk produced continuation.position.rowOrdinal item
  have atRow := chunk_rows_at history good chunk produced
  have suffix := cursor.suffix _ (List.getElem?_eq_getElem cursor.inside)
  change weight (retractions (pendingOf spec continuation.remainingWeight
    (chunk.payload.drop continuation.position.rowOrdinal))) item ≤ _
  rw [List.drop_eq_getElem_cons cursor.inside] at before ⊢
  cases remaining : continuation.remainingWeight with
  | none =>
      rw [applied_whole]
      exact before
  | some rest =>
      obtain ⟨nonzero, sameSign, within⟩ := suffix rest remaining
      unfold chunkRows at atRow
      have inside := cursor.inside
      simp only [pendingOf, List.map_cons, weight_retractions_cons, effectOf, Option.getD_some, appliedWeights, openPart, atRow,
        List.getElem?_eq_getElem inside, Option.toList_some, List.map_nil, weight_append, weight_cons,
        weight_nil] at before ⊢
      change _ ≤ weight (weightsBefore spec history _ _) item + _
      generalize chunk.payload[continuation.position.rowOrdinal] = row at sameSign within before ⊢
      by_cases same : spec.mapping row.rowValue = item
      · simp only [same, true_and, if_true] at before ⊢
        rcases Int.lt_or_gt_of_ne nonzero with down | up
        · have negative : row.weight < 0 := by
            rw [Int.sign_eq_neg_one_of_neg down] at sameSign
            exact Int.sign_eq_neg_one_iff_neg.mp sameSign.symm
          rw [if_pos negative] at before
          rw [if_pos down]
          omega
        · have positive : 0 < row.weight := by
            rw [Int.sign_eq_one_of_pos up] at sameSign
            exact Int.sign_eq_one_iff_pos.mp sameSign.symm
          rw [if_neg (by omega)] at before ⊢
          omega
      · simp only [same, false_and, if_false] at before ⊢
        omega

end Covered

end Shiba.Sink
