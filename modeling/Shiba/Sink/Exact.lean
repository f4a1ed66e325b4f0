import Shiba.Sink.Bag

set_option autoImplicit false

namespace Shiba.Sink

open Copies Weighted Transition Shiba.Stream Shiba.Execution Shiba.Linear Shiba.Linear.Transform

variable {Row Out : Type} [DecidableEq Out]

-- The result is the bag of all weights applied, and a step with work commits
-- and moves on.
structure SinkExact (spec : SinkSpec Row Out) (key : ConsumerKey) (tables : SinkTables Row Out) (row : StreamConsumer) :
    Prop where
  held : ∀ item, (tables.state.count item : Int) =
    weight (appliedWeights spec tables.input row.nextChunkSeq (ordinalOf tables) (remainingOf tables)) item
  commits : row.nextChunkSeq < tables.input.stream.nextChunkSeq → ∀ budget, ∃ after next,
    stepSink spec tables key budget = .ok after ∧ after.input.stream.findConsumer key = some next ∧
      Onward spec tables row after next

-- A step with nothing to do leaves everything as it was.
theorem step_waits (spec : SinkSpec Row Out) (key : ConsumerKey) (tables after : SinkTables Row Out) (budget : WorkBudget)
    (row : StreamConsumer) (continuation : SinkContinuation) (stands : Stands spec key tables row continuation)
    (waits : ¬ row.nextChunkSeq < tables.input.stream.nextChunkSeq) (ok : stepSink spec tables key budget = .ok after) :
    after = tables := by
  have good := stands.good
  refine run_kernel_waits stands.found good.operator (.inr waits) (fun nothing => ?_) ok
  rw [good.checkpoint, saved_is_some stands]
  by_contra persisted
  obtain ⟨chunk, produced, atCursor, _⟩ := stands.applying.inside (by simpa using persisted)
  have below := produced_below tables.input good.input.produced chunk produced
  rw [atCursor] at below
  exact nothing below

section Runs

variable (spec : SinkSpec Row Out) (key : ConsumerKey)

theorem sink_step_keeps (tables after : SinkTables Row Out) (call : SinkCall Row key) (good : SinkInvariant spec key tables)
    (feeds : Feeds spec key tables call) (taken : sinkStep spec key tables call = .ok after) :
    SinkInvariant spec key after := by
  cases call with
  | source op other =>
      obtain ⟨input, ok, rfl⟩ := except_map_ok taken
      exact sink_source_keeps spec key tables good op other feeds.1 feeds.2 input ok
  | step budget =>
      obtain ⟨row, continuation, stands⟩ := invariant_stands spec key tables good
      by_cases pending : row.nextChunkSeq < tables.input.stream.nextChunkSeq
      · obtain ⟨chunk, here⟩ := pending_chunk stands pending
        obtain ⟨next, onward, there, _⟩ := step_onward here after taken
        exact there.good
      · rw [step_waits spec key tables after budget row continuation stands pending taken]
        exact good

theorem sink_path_invariant {start after : SinkTables Row Out} (registered : SinkRegistered key start)
    (ran : Path (sinkStep spec key) (Feeds spec key) start after) : SinkInvariant spec key after :=
  path_invariant (SinkInvariant spec key)
    (fun tables call next good feeds taken => sink_step_keeps spec key tables next call good feeds taken) start after
    (sink_registered_invariant spec key start registered).1 ran

variable (tables : SinkTables Row Out) (row : StreamConsumer) (continuation : SinkContinuation)
  (stands : Stands spec key tables row continuation)

include stands

theorem stands_held (item : Out) : (tables.state.count item : Int) =
    weight (appliedWeights spec tables.input row.nextChunkSeq (ordinalOf tables) (remainingOf tables)) item := by
  obtain ⟨ordinal, remaining⟩ := position_of stands
  rw [ordinal, remaining]
  exact stands.applying.held item

-- Where the weights so far cover what a chunk still retracts, every step commits.
theorem covered_commits (covered : Covered spec tables.input)
    (pending : row.nextChunkSeq < tables.input.stream.nextChunkSeq) (budget : WorkBudget) :
    ∃ after, stepSink spec tables key budget = .ok after := by
  obtain ⟨chunk, here⟩ := pending_chunk stands pending
  cases kind : chunk.chunkKind with
  | data =>
      obtain ⟨actions, quantum, next, paged⟩ := page_planned budget here kind
      refine ⟨_, step_data here kind paged ?_⟩
      intro item
      have left := left_covered spec tables.input stands.good.input covered chunk (chunk_produced here) _ continuation
        (cursor_inside here kind) item
      have parts := cut_retractions _ _ _ paged.planned.cut item
      have natural := weight_retractions_nonneg (leftOf spec chunk next) item
      rw [here.atCursor, ← stands.applying.held item] at left
      change weight (retractions (pendingOf spec continuation.remainingWeight
        (chunk.payload.drop continuation.position.rowOrdinal))) item ≤ _ at left
      omega
  | frontier => exact ⟨_, step_frontier budget here kind⟩

theorem covered_exact (covered : Covered spec tables.input) : SinkExact spec key tables row := by
  refine ⟨stands_held spec key tables row continuation stands, ?_⟩
  intro pending budget
  obtain ⟨after, ok⟩ := covered_commits spec key tables row continuation stands covered pending budget
  obtain ⟨chunk, here⟩ := pending_chunk stands pending
  obtain ⟨next, _, there, onward, _⟩ := step_onward here after ok
  exact ⟨after, next, ok, there.found, onward⟩

end Runs

section Roomy

variable (spec : SinkSpec Row Out)

-- A budget with room for some rows, and no row more.
def roomyBudget (rows : List (EffectRow Row)) (some : rows ≠ []) : WorkBudget where
  maxInputRows := rows.length
  maxInputBytes := (rows.map spec.rowBytes).sum + 1
  maxOutputRows := (rows.map fun row => row.weight.natAbs).sum + 1
  maxOutputBytes := (rows.map fun row => spec.rowBytes row * row.weight.natAbs).sum + 1
  inputRowsPositive := List.length_pos_iff.mpr some
  inputBytesPositive := Nat.succ_pos _
  outputRowsPositive := Nat.succ_pos _
  outputBytesPositive := Nat.succ_pos _

omit [DecidableEq Out] in
-- A step with such a budget plans just these rows, whole.
theorem roomy_paged {streamId : Nat} (identified : 0 < streamId) {chunk : EffectChunk Row} (numbered : 0 < chunk.chunkSeq)
    {continuation : SinkContinuation} (cursor : CursorIn streamId chunk continuation)
    (whole : continuation.remainingWeight = none) (signed : ∀ row ∈ chunk.payload, row.weight ≠ 0)
    (bounded : ∀ row ∈ chunk.payload, row.weight.natAbs ≤ bigintMax) {rows later : List (EffectRow Row)} (some : rows ≠ [])
    (isRest : chunk.payload.drop continuation.position.rowOrdinal = rows ++ later) {actions : List SinkAction}
    {quantum : WorkQuantum} {next : Option SinkContinuation}
    (paged : Paged spec streamId (roomyBudget spec rows some) continuation chunk actions quantum next) :
    effectsOf spec chunk actions = rows.map (effectOf spec) ∧
      next = nextRow streamId chunk (continuation.position.rowOrdinal + (rows.length - 1)) := by
  have inChunk : ∀ row ∈ rows, row ∈ chunk.payload := fun row member =>
    List.mem_of_mem_drop (isRest ▸ List.mem_append_left later member)
  obtain ⟨row, rest, rfl⟩ := List.exists_cons_of_ne_nil some
  have position := cursor.position
  obtain ⟨planned, used, ran, effects⟩ := plan_heads_whole spec streamId chunk identified numbered continuation.position
    (by rw [position]) (by rw [position]) row rest later continuation.position.rowOrdinal []
    { budget := roomyBudget spec (row :: rest) some, maxTransitions := (row :: rest).length } continuation.persisted isRest
    (fun each member => signed each (inChunk each member)) (fun each member => bounded each (inChunk each member))
    ⟨Nat.le_of_eq (Nat.zero_add _), Nat.le_of_eq (Nat.zero_add _), by simp [roomyBudget], by simp [roomyBudget],
      by simp [roomyBudget]⟩
  have isContinuation : continuation =
      ⟨⟨streamId, chunk.chunkSeq, continuation.position.rowOrdinal⟩, none, continuation.persisted⟩ := by
    rw [← position, ← whole]
  have isRows : pageRows (roomyBudget spec (row :: rest) some) continuation chunk = row :: rest := by
    unfold pageRows
    rw [isRest]
    exact List.take_left' rfl
  have same := paged.ran
  unfold startPlan at same
  rw [isRows] at same
  rw [← isContinuation] at ran
  have equal := ran.symm.trans same
  obtain ⟨isActions, _, isNext⟩ := PagePlan.mk.inj (Except.ok.inj equal)
  rw [List.nil_append] at isActions
  exact ⟨isActions ▸ effects, isNext.symm⟩

end Roomy

-- The input stream is written, and the Sink does not run yet.
def Feeding (spec : SinkSpec Row Out) (key : ConsumerKey) (tables : SinkTables Row Out) : SinkCall Row key → Prop
  | .source op other => Feeds spec key tables (.source op other)
  | .step _ => False

omit [DecidableEq Out] in
theorem feeding_feeds (spec : SinkSpec Row Out) (key : ConsumerKey) (tables : SinkTables Row Out) (call : SinkCall Row key)
    (feeding : Feeding spec key tables call) : Feeds spec key tables call := by
  cases call with
  | source op other => exact feeding
  | step budget => exact False.elim feeding

-- The weights of a stream's rows have an absolute value in bigint.
def Bounded (history : StreamHistory Row) : Prop :=
  ∀ chunk ∈ history.produced, ∀ row ∈ chunk.payload, row.weight.natAbs ≤ bigintMax

-- Wherever a run takes the Sink while its input is still a part of `fed`, it is exact.
def Maintains (spec : SinkSpec Row Out) (key : ConsumerKey) (start : SinkTables Row Out) (fed : StreamHistory Row) : Prop :=
  ∀ after, Path (sinkStep spec key) (Feeds spec key) start after → after.input.produced <+: fed.produced →
    ∃ row, after.input.stream.findConsumer key = some row ∧ SinkExact spec key after row

section Converse

variable {spec : SinkSpec Row Out} {key : ConsumerKey} {start fed : SinkTables Row Out}
  (registered : SinkRegistered key start)

include registered

theorem feeding_run (feeding : Path (sinkStep spec key) (Feeding spec key) start fed) :
    Path (sinkStep spec key) (Feeds spec key) start fed ∧ ∃ row, row.nextChunkSeq = 1 ∧
      Stands spec key fed row (freshAt fed 1) := by
  have ran : Path (sinkStep spec key) (Feeds spec key) start fed ∧ fed.continuation = none ∧
      ∃ row ∈ fed.input.stream.consumers, row.consumer = key ∧ row.nextChunkSeq = 1 := by
    induction feeding with
    | here =>
        obtain ⟨before, facts, activationLsn, _, attached⟩ := registered.input
        obtain ⟨stream, made, attachedInput⟩ := except_map_ok attached
        obtain ⟨_, unproduced, rfl⟩ := attach_cases made
        have operator : before.stream.isSource = false := by
          have isOperator := registered.operator
          rw [← attachedInput] at isOperator
          exact isOperator
        obtain ⟨producerOid, producerStage, producer⟩ := operator_producer before.stream operator
        refine ⟨.here, registered.continuation, freshConsumer before.stream key activationLsn, ?_, ?_, ?_⟩
        · rw [← attachedInput]
          exact List.mem_append_right _ (List.mem_singleton.mpr rfl)
        · simp only [freshConsumer, producer]
        · simp only [freshConsumer, producer]
    | next before after call previous feeds taken ih =>
        obtain ⟨path, unsaved, row, member, named, first⟩ := ih
        have onward := Path.next before after call path (feeding_feeds spec key before call feeds) taken
        cases call with
        | source op other =>
            obtain ⟨input, ok, rfl⟩ := except_map_ok taken
            exact ⟨onward, unsaved, row, consumer_kept other ok member named, named, first⟩
        | step budget => exact False.elim feeds
  obtain ⟨path, unsaved, row, member, named, first⟩ := ran
  have good := sink_path_invariant spec key registered path
  obtain ⟨other, continuation, stands⟩ := invariant_stands spec key fed good
  have same : row = other := by
    have found := consumer_found good.input member named
    exact Option.some.inj (found.symm.trans stands.found)
  subst same
  have isFresh : continuation = freshAt fed 1 := by
    have isSome := saved_is_some stands
    rw [unsaved] at isSome
    obtain ⟨begins, whole⟩ := stands.applying.fresh isSome.symm
    have position := stands.applying.position
    rw [begins, first] at position
    cases continuation
    simp only at position whole isSome
    rw [position, whole, ← isSome]
    rfl
  exact ⟨path, row, first, isFresh ▸ stands⟩

variable (maintains : Maintains spec key start fed.input) (bounded : Bounded fed.input)

include maintains bounded

omit registered in
-- Some step over a page of rows commits, and the result held what it retracted.
theorem maintained_page (tables : SinkTables Row Out) (row : StreamConsumer) (continuation : SinkContinuation)
    (chunk : EffectChunk Row) (ran : Path (sinkStep spec key) (Feeds spec key) start tables)
    (same : tables.input.produced = fed.input.produced) (here : AtChunk spec key tables row continuation chunk)
    (kind : chunk.chunkKind = .data) (whole : continuation.remainingWeight = none) (rows later : List (EffectRow Row))
    (some : rows ≠ []) (isRest : chunk.payload.drop continuation.position.rowOrdinal = rows ++ later) :
    Holds tables.state (rows.map (effectOf spec)) ∧
      Path (sinkStep spec key) (Feeds spec key) start (pageTables tables key row chunk
        (mutatedResult tables.state (rows.map (effectOf spec)))
        (nextRow tables.input.stream.streamId chunk (continuation.position.rowOrdinal + (rows.length - 1)))) ∧
      ∃ actions quantum, Paged spec tables.input.stream.streamId (roomyBudget spec rows some) continuation chunk actions
        quantum (nextRow tables.input.stream.streamId chunk (continuation.position.rowOrdinal + (rows.length - 1))) ∧
        effectsOf spec chunk actions = rows.map (effectOf spec) := by
  have good := here.stands.good
  have produced := chunk_produced here
  obtain ⟨other, found, exact⟩ := maintains tables ran (same ▸ List.prefix_refl _)
  obtain rfl := Option.some.inj (here.stands.found.symm.trans found)
  have pending := produced_below tables.input good.input.produced chunk produced
  rw [here.atCursor] at pending
  obtain ⟨after, _, ok, _⟩ := exact.commits pending (roomyBudget spec rows some)
  obtain ⟨actions, quantum, next, paged⟩ := page_planned (roomyBudget spec rows some) here kind
  obtain ⟨effects, isNext⟩ := roomy_paged spec good.streamId
    (here.atCursor ▸ here.stands.first) (cursor_inside here kind) whole (good.stored chunk produced).signed
    (bounded chunk (same ▸ produced)) some isRest paged
  have holds := step_data_needs here kind paged after ok
  have taken := step_data here kind paged holds
  rw [effects] at holds taken
  subst isNext
  exact ⟨holds, .next tables _ (.step (roomyBudget spec rows some)) ran trivial taken, actions, quantum, paged, effects⟩

-- Every chunk is reached, and passed.
theorem maintained_reaches (feeding : Path (sinkStep spec key) (Feeding spec key) start fed) (passed : Nat)
    (within : passed ≤ fed.input.produced.length) : ∃ tables row, Path (sinkStep spec key) (Feeds spec key) start tables ∧
      tables.input.produced = fed.input.produced ∧ row.nextChunkSeq = passed + 1 ∧
      Stands spec key tables row (freshAt tables (passed + 1)) := by
  induction passed with
  | zero =>
      obtain ⟨ran, row, first, stands⟩ := feeding_run registered feeding
      exact ⟨fed, row, ran, rfl, first, stands⟩
  | succ passed ih =>
      obtain ⟨tables, row, ran, same, atNext, stands⟩ := ih (Nat.le_of_succ_le within)
      have length := stands.good.input.produced.next
      obtain ⟨chunk, here⟩ := pending_chunk stands (by rw [length, same, atNext]; omega)
      cases kind : chunk.chunkKind with
      | data =>
          have cursor := cursor_inside here kind
          have some : chunk.payload ≠ [] := List.length_pos_iff.mp (Nat.lt_of_le_of_lt (Nat.zero_le _) cursor.inside)
          obtain ⟨holds, onward, actions, quantum, paged, effects⟩ := maintained_page maintains bounded
            tables row _ chunk ran same here kind rfl chunk.payload [] some (by simp [freshAt])
          have last : (freshAt tables (passed + 1)).position.rowOrdinal + (chunk.payload.length - 1) + 1 =
              chunk.payload.length := by
            have present := List.length_pos_iff.mpr some
            simp only [freshAt]
            omega
          have isNone : nextRow tables.input.stream.streamId chunk
              ((freshAt tables (passed + 1)).position.rowOrdinal + (chunk.payload.length - 1)) = none := if_pos last
          rw [isNone] at onward paged
          rw [← effects] at holds onward
          refine ⟨_, passedRow row chunk, onward, same, congrArg (· + 1) atNext, ?_⟩
          · have there := page_stands_none here kind paged holds rfl
            rw [atNext] at there
            exact there
      | frontier =>
          have taken := step_frontier ⟨1, 1, 1, 1, Nat.one_pos, Nat.one_pos, Nat.one_pos, Nat.one_pos⟩ here kind
          have there := frontier_stands here kind
          rw [atNext] at there
          exact ⟨_, passedRow row chunk, .next tables _ (.step _) ran trivial taken, same, congrArg (· + 1) atNext, there⟩

omit [DecidableEq Out] registered maintains bounded in
theorem weights_before_same {first second : StreamHistory Row} (same : first.produced = second.produced) (next ordinal : Nat) :
    weightsBefore spec first next ordinal = weightsBefore spec second next ordinal := by
  unfold weightsBefore readRows
  rw [same]

-- The Sink can be brought to any row of any chunk with data.
theorem maintained_row (feeding : Path (sinkStep spec key) (Feeding spec key) start fed) (chunk : EffectChunk Row)
    (produced : chunk ∈ fed.input.produced) (ordinal : Nat) (inside : ordinal < chunk.payload.length) :
    ∃ tables row continuation, Path (sinkStep spec key) (Feeds spec key) start tables ∧
      tables.input.produced = fed.input.produced ∧ AtChunk spec key tables row continuation chunk ∧
      chunk.chunkKind = .data ∧ continuation.position.rowOrdinal = ordinal ∧ continuation.remainingWeight = none := by
  have fedGood := (sink_path_invariant spec key registered (feeding_run registered feeding).1)
  obtain ⟨positive, atSeq⟩ := produced_at fedGood.input produced
  have within := (List.getElem?_eq_some_iff.mp atSeq).1
  obtain ⟨tables, row, ran, same, atNext, stands⟩ := maintained_reaches registered maintains bounded
    feeding (chunk.chunkSeq - 1) (Nat.le_of_lt within)
  have isSeq : chunk.chunkSeq - 1 + 1 = chunk.chunkSeq := by omega
  rw [isSeq] at atNext stands
  have good := stands.good
  have length := good.input.produced.next
  obtain ⟨other, here⟩ := pending_chunk stands (by rw [length, same, atNext]; omega)
  have isChunk : other = chunk := List.inj_on_of_nodup_map (produced_keys good.input) (chunk_produced here)
    (same ▸ produced) (here.atCursor.trans atNext)
  subst isChunk
  have kind : other.chunkKind = .data := by
    cases kind : other.chunkKind with
    | data => rfl
    | frontier =>
        rw [(good.stored other (chunk_produced here)).counted.empty kind] at inside
        exact absurd inside (Nat.not_lt_zero _)
  by_cases begins : ordinal = 0
  · exact ⟨tables, row, _, ran, same, here, kind, begins.symm, rfl⟩
  · have some : other.payload.take ordinal ≠ [] := by
      rw [ne_eq, List.take_eq_nil_iff, not_or]
      exact ⟨begins, List.length_pos_iff.mp (Nat.lt_of_le_of_lt (Nat.zero_le _) inside)⟩
    obtain ⟨holds, onward, actions, quantum, paged, effects⟩ := maintained_page maintains bounded
      tables row _ other ran same here kind rfl (other.payload.take ordinal) (other.payload.drop ordinal) some
      (by simp [freshAt])
    have count : (other.payload.take ordinal).length = ordinal := by
      rw [List.length_take]
      omega
    have isNext : nextRow tables.input.stream.streamId other
        ((freshAt tables other.chunkSeq).position.rowOrdinal + ((other.payload.take ordinal).length - 1)) =
          .some ⟨⟨tables.input.stream.streamId, other.chunkSeq, ordinal⟩, none, true⟩ := by
      have last : ¬ (freshAt tables other.chunkSeq).position.rowOrdinal + ((other.payload.take ordinal).length - 1) + 1 =
          other.payload.length := by
        rw [count]
        simp only [freshAt]
        omega
      have back : (freshAt tables other.chunkSeq).position.rowOrdinal + ((other.payload.take ordinal).length - 1) + 1 =
          ordinal := by
        rw [count]
        simp only [freshAt]
        omega
      unfold nextRow
      rw [if_neg last, back]
    rw [isNext] at onward paged
    rw [← effects] at holds onward
    exact ⟨_, row, _, onward, same, ⟨page_stands_some here kind paged holds _ rfl, here.stored, here.atCursor⟩, kind, rfl, rfl⟩

-- So a Sink that is always exact had its retractions covered.
theorem maintained_covered (feeding : Path (sinkStep spec key) (Feeding spec key) start fed) : Covered spec fed.input := by
  have fedGood := (sink_path_invariant spec key registered (feeding_run registered feeding).1)
  intro chunk produced ordinal item
  by_cases inside : ordinal < chunk.payload.length
  · obtain ⟨tables, row, continuation, ran, same, here, kind, isOrdinal, whole⟩ := maintained_row registered
      maintains bounded feeding chunk produced ordinal inside
    have some : chunk.payload.drop ordinal ≠ [] := by
      rw [ne_eq, List.drop_eq_nil_iff]
      exact Nat.not_le.mpr inside
    obtain ⟨holds, _⟩ := maintained_page maintains bounded tables row continuation chunk ran same here
      kind whole (chunk.payload.drop ordinal) [] some (by rw [isOrdinal, List.append_nil])
    have held := here.stands.applying.held item
    rw [isOrdinal, whole, applied_whole, ← here.atCursor, weights_before_same same] at held
    exact held ▸ holds item
  · have ended := List.drop_eq_nil_of_le (Nat.le_of_not_lt inside)
    obtain ⟨positive, atSeq⟩ := produced_at fedGood.input produced
    have within := (List.getElem?_eq_some_iff.mp atSeq).1
    obtain ⟨tables, row, ran, same, atNext, stands⟩ := maintained_reaches registered maintains bounded
      feeding chunk.chunkSeq (by omega)
    have held := stands.applying.held item
    have past := read_rows_past fedGood.input produced ordinal
    rw [ended, List.append_nil] at past
    have counted : ((tables.state.count item : Nat) : Int) =
        weight (weightsBefore spec fed.input (chunk.chunkSeq + 1) 0) item := by
      rw [held, atNext, ← weights_before_same same]
      exact congrArg (weight · item) (applied_start spec tables.input (chunk.chunkSeq + 1))
    have nothing : weight (retractions ((chunk.payload.drop ordinal).map (effectOf spec))) item = 0 := by
      rw [ended]
      rfl
    have sameRows : weightsBefore spec fed.input (chunk.chunkSeq + 1) 0 = weightsBefore spec fed.input chunk.chunkSeq ordinal := by
      unfold weightsBefore
      rw [past]
    rw [nothing, ← sameRows, ← counted]
    exact Int.natCast_nonneg _

end Converse

-- No row's weights so far are ever negative.
def NeverNegative (spec : SinkSpec Row Out) (history : StreamHistory Row) : Prop :=
  ∀ chunk ∈ history.produced, ∀ ordinal item, 0 ≤ weight (weightsBefore spec history chunk.chunkSeq ordinal) item

-- A Sink holds the accumulated bag, whatever its budgets are and however its
-- steps are interleaved with its input, exactly when the rows a chunk retracts
-- are covered at every position before their retractions.
theorem sink_maintains_bag (spec : SinkSpec Row Out) (key : ConsumerKey) (start fed : SinkTables Row Out)
    (registered : SinkRegistered key start) (feeding : Path (sinkStep spec key) (Feeding spec key) start fed) :
    (Covered spec fed.input → Maintains spec key start fed.input) ∧
      (Bounded fed.input → Maintains spec key start fed.input → Covered spec fed.input) := by
  constructor
  · intro covered after ran isPrefix
    have good := sink_path_invariant spec key registered ran
    obtain ⟨row, continuation, stands⟩ := invariant_stands spec key after good
    have here := covered_prefix spec after.input fed.input covered isPrefix good.input
    exact ⟨row, stands.found, covered_exact spec key after row continuation stands here⟩
  · intro bounded maintains
    exact maintained_covered registered maintains bounded feeding

def plainRows : SinkSpec Nat Nat where
  mapping := id
  inputLength := fun _ => 1

-- A Sink registered over an operator stream.
def registeredSink : SinkTables Nat Nat where
  input := attempts historyStep ⟨freshStream smallLimits 2 (.operator 900 0), none, []⟩ [.attach ⟨true, false⟩ scanConsumer 0]
  output := noOutput
  hasContinuation := false
  continuation := none
  state := []

theorem sink_registered : SinkRegistered scanConsumer registeredSink where
  input := ⟨_, ⟨true, false⟩, 0, .start _ ⟨smallLimits, 2, .operator 900 0, none, rfl⟩, rfl⟩
  operator := rfl
  streamId := by decide
  output := rfl
  continuation := rfl
  checkpoint := rfl
  result := rfl

-- Two copies of a row arrive, and one of them is retracted by a later chunk.
def insertedFirst : SinkTables Nat Nat :=
  { registeredSink with input := attempts historyStep registeredSink.input [.append 1 .data 1 9 10 [⟨2, 7⟩]] }

def retractedLater : SinkTables Nat Nat :=
  { registeredSink with input := attempts historyStep insertedFirst.input [.append 2 .data 1 9 11 [⟨-1, 7⟩]] }

theorem sink_maintains_bag_later : Maintains plainRows scanConsumer registeredSink retractedLater.input := by
  have inserted : Path (sinkStep plainRows scanConsumer) (Feeding plainRows scanConsumer) registeredSink insertedFirst :=
    .next _ _ (.source (.append 1 .data 1 9 10 [⟨2, 7⟩]) trivial) .here ⟨⟨rfl, rfl, fun _ => rfl⟩, List.forall_mem_singleton.mpr (by decide)⟩ rfl
  have retracted : Path (sinkStep plainRows scanConsumer) (Feeding plainRows scanConsumer) registeredSink retractedLater :=
    .next _ _ (.source (.append 2 .data 1 9 11 [⟨-1, 7⟩]) trivial) inserted ⟨⟨rfl, rfl, fun _ => rfl⟩, List.forall_mem_singleton.mpr (by decide)⟩ rfl
  have produced : retractedLater.input.produced =
      [⟨1, .data, 1, 9, 10, [⟨2, 7⟩]⟩, ⟨2, .data, 1, 9, 11, [⟨-1, 7⟩]⟩] := rfl
  apply (sink_maintains_bag plainRows scanConsumer registeredSink retractedLater sink_registered retracted).1
  intro chunk member ordinal item
  rw [produced] at member
  unfold weightsBefore readRows
  rw [produced]
  rcases List.mem_cons.mp member with rfl | later
  · cases ordinal with
    | zero => simp [retractions, effectOf, plainRows]
    | succ ordinal =>
        simp [retractions, effectOf, plainRows, weight_cons]
        split <;> decide
  · obtain rfl := List.mem_singleton.mp later
    cases ordinal with
    | zero =>
        simp [retractions, effectOf, plainRows, weight_cons]
        split <;> decide
    | succ ordinal =>
        simp [retractions, effectOf, plainRows, weight_cons]
        split <;> decide

-- One chunk inserts a row and retracts it.
def insertedRetracted : SinkTables Nat Nat :=
  { registeredSink with input := attempts historyStep registeredSink.input [.append 1 .data 2 18 10 [⟨1, 7⟩, ⟨-1, 7⟩]] }

-- The page that holds both rows finds nothing to delete, on every attempt.
theorem sink_misses_inserted : SinkRegistered scanConsumer registeredSink ∧
    Path (sinkStep plainRows scanConsumer) (Feeding plainRows scanConsumer) registeredSink insertedRetracted ∧
    NeverNegative plainRows insertedRetracted.input ∧
    stepSink plainRows insertedRetracted scanConsumer narrowBudget =
      .error (.failed "Sink expected 2 result mutations, database returned 1") ∧
    ¬ Maintains plainRows scanConsumer registeredSink insertedRetracted.input := by
  have feeding : Path (sinkStep plainRows scanConsumer) (Feeding plainRows scanConsumer) registeredSink insertedRetracted :=
    .next _ _ (.source (.append 1 .data 2 18 10 [⟨1, 7⟩, ⟨-1, 7⟩]) trivial) .here
      ⟨⟨rfl, rfl, fun _ => rfl⟩, List.forall_mem_cons.mpr ⟨by decide, List.forall_mem_singleton.mpr (by decide)⟩⟩ rfl
  have produced : insertedRetracted.input.produced = [⟨1, .data, 2, 18, 10, [⟨1, 7⟩, ⟨-1, 7⟩]⟩] := rfl
  have failed : stepSink plainRows insertedRetracted scanConsumer narrowBudget =
      .error (.failed "Sink expected 2 result mutations, database returned 1") := rfl
  refine ⟨sink_registered, feeding, ?_, failed, ?_⟩
  · intro chunk member ordinal item
    rw [produced] at member
    obtain rfl := List.mem_singleton.mp member
    unfold weightsBefore readRows
    rw [produced]
    match ordinal with
    | 0 => simp
    | 1 =>
        simp [effectOf, plainRows, weight_cons]
        split <;> decide
    | ordinal + 2 =>
        simp [effectOf, plainRows, weight_cons]
        split <;> decide
  · intro maintains
    have ran := (feeding_run sink_registered feeding).1
    obtain ⟨row, found, exact⟩ := maintains insertedRetracted ran (List.prefix_refl _)
    have isRow : row.nextChunkSeq = 1 := by
      obtain rfl := Option.some.inj found
      rfl
    have pending : row.nextChunkSeq < insertedRetracted.input.stream.nextChunkSeq := by
      rw [isRow]
      decide
    obtain ⟨after, _, committed, _⟩ := exact.commits pending narrowBudget
    rw [failed] at committed
    cases committed

end Shiba.Sink
