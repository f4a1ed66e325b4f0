import Shiba.Linear.TransformSteps

set_option autoImplicit false

namespace Shiba.Linear.Transform

open Transition Shiba.Stream Shiba.Execution

variable {Row Out : Type}

section Read

variable {history : StreamHistory Row} (good : StreamInvariant history) {chunk : EffectChunk Row}
  (produced : chunk ∈ history.produced)

include good produced

theorem read_rows_at (ordinal : Nat) : readRows history chunk.chunkSeq ordinal =
    (history.produced.take (chunk.chunkSeq - 1)).flatMap EffectChunk.payload ++ chunk.payload.take ordinal := by
  unfold readRows
  rw [(produced_at good produced).2]
  rfl

-- Reading on inside a chunk.
theorem read_rows_more (ordinal count : Nat) : readRows history chunk.chunkSeq (ordinal + count) =
    readRows history chunk.chunkSeq ordinal ++ (chunk.payload.drop ordinal).take count := by
  rw [read_rows_at good produced, read_rows_at good produced, List.append_assoc]
  congr 1
  exact List.take_add

-- Reading past a chunk.
theorem read_rows_past (ordinal : Nat) : readRows history (chunk.chunkSeq + 1) 0 =
    readRows history chunk.chunkSeq ordinal ++ chunk.payload.drop ordinal := by
  obtain ⟨first, atSeq⟩ := produced_at good produced
  have whole : chunk.chunkSeq + 1 - 1 = chunk.chunkSeq - 1 + 1 := by omega
  rw [read_rows_at good produced, List.append_assoc, List.take_append_drop]
  unfold readRows
  rw [whole, List.take_zero, List.append_nil, List.take_add_one, atSeq, List.flatMap_append]
  simp

end Read

section Written

variable (spec : TransformSpec Row Out) (key : ConsumerKey) (tables : TransformTables Row Out) (budget : WorkBudget)
  (row : StreamConsumer) (chunk : EffectChunk Row) (ordinal : Nat)

theorem written_rows : outputRows (written spec tables budget chunk ordinal) =
    outputRows tables.output ++ emitted spec tables budget chunk ordinal := by
  unfold written
  split
  · rename_i none
    rw [List.length_eq_zero_iff.mp none, List.append_nil]
  · simp [outputRows, appendedHistory, newChunk]

theorem written_limits : (written spec tables budget chunk ordinal).stream.toStreamLimits =
    tables.output.stream.toStreamLimits := by
  unfold written
  split
  · rfl
  · rfl

theorem written_published_frontier : (written spec tables budget chunk ordinal).stream.publishedFrontierLsn =
    tables.output.stream.publishedFrontierLsn := by
  unfold written
  split
  · rfl
  · rfl

variable (good : TransformInvariant spec key tables) (reading : Reading spec tables row ordinal)
  (produced : chunk ∈ tables.input.produced) (atCursor : chunk.chunkSeq = row.nextChunkSeq)
  (kind : chunk.chunkKind = .data) (inside : ordinal < chunk.rowCount)

include good in
theorem written_shape : OutputShape (written spec tables budget chunk ordinal).stream := by
  unfold written
  split
  · exact good.output
  · exact output_shape_appended good.output .data _ _ _ _

include reading

include good produced inside in
theorem written_targets : ∀ out ∈ (written spec tables budget chunk ordinal).produced,
    WithinTarget spec.scanPlaceholder tables.output.stream.toStreamLimits out := by
  unfold written
  split
  · exact reading.targets
  · intro out member
    rcases List.mem_append.mp member with old | new
    · exact reading.targets out old
    · obtain rfl := List.mem_singleton.mp new
      have counted := good.stored chunk produced
      have taken := (page_taken spec tables budget chunk ordinal counted inside good.output.target).output
      exact ⟨Nat.le_trans taken.counted (Nat.min_le_right _ _),
        taken.sized.imp (fun small => Nat.le_trans small (Nat.min_le_right _ _)) id⟩

include produced atCursor kind in
theorem written_latest (lsn : Lsn)
    (isLatest : (written spec tables budget chunk ordinal).stream.latestDataLsn = some lsn) :
    ∃ source ∈ tables.input.produced, source.chunkKind = .data ∧ source.chunkSeq ≤ row.nextChunkSeq ∧
      source.chunkLsn = lsn := by
  unfold written at isLatest
  split at isLatest
  · exact reading.latest lsn isLatest
  · obtain rfl := Option.some.inj isLatest
    rcases greatest_lsn_cases tables.output.stream.latestDataLsn chunk.chunkLsn with same | earlier
    · exact ⟨chunk, produced, kind, Nat.le_of_eq atCursor, same.symm⟩
    · exact reading.latest _ earlier

end Written

section Moves

variable (spec : TransformSpec Row Out) (key : ConsumerKey) {tables : TransformTables Row Out} (budget : WorkBudget)
  (row : StreamConsumer) (chunk : EffectChunk Row) {ordinal : Nat} (good : TransformInvariant spec key tables)
  (found : tables.input.stream.findConsumer key = some row) (reading : Reading spec tables row ordinal)
  (first : 1 ≤ row.nextChunkSeq) (flat : row.activationLsn = 0) (stored : chunk ∈ tables.input.stream.chunks)
  (atCursor : chunk.chunkSeq = row.nextChunkSeq)

include good found reading first flat stored atCursor

section Data

variable (kind : chunk.chunkKind = .data) (inside : ordinal < chunk.rowCount)

include kind inside

omit found first flat in
theorem inside_reading (more : ordinal + (page spec tables budget chunk ordinal).length < chunk.rowCount) :
    Reading spec (insideTables spec tables budget row chunk ordinal) row
      (ordinal + (page spec tables budget chunk ordinal).length) := by
  have produced := good.input.produced.stored.subset stored
  have counted := good.stored chunk produced
  have taken := page_taken spec tables budget chunk ordinal counted inside good.output.target
  have length := (page_length spec tables budget chunk ordinal counted inside good.output.target).1
  refine ⟨?_, fun _ => ⟨chunk, produced, atCursor, kind, more⟩, ?_, ?_, ?_, ?_⟩
  · have onward : ¬ ordinal + (page spec tables budget chunk ordinal).length = 0 := by omega
    simp only [dataCursor, onward, if_false]
    rfl
  · have isPage : (chunk.payload.drop ordinal).take (page spec tables budget chunk ordinal).length =
        page spec tables budget chunk ordinal := by
      obtain ⟨count, isPrefix⟩ := taken.isPrefix
      rw [isPrefix, List.length_take, List.take_eq_take_iff]
      omega
    have rows := read_rows_more good.input produced ordinal (page spec tables budget chunk ordinal).length
    rw [isPage, atCursor] at rows
    change outputRows (written spec tables budget chunk ordinal) = spec.image (readRows tables.input _ _)
    rw [written_rows, rows, image_append, reading.written]
    rfl
  · intro out member
    have within := written_targets spec key tables budget row chunk ordinal good reading produced inside out member
    exact (written_limits spec tables budget chunk ordinal).symm ▸ within
  · intro lsn isPublished
    exact reading.published lsn ((written_published_frontier spec tables budget chunk ordinal).symm.trans isPublished)
  · intro lsn isLatest
    exact written_latest spec tables budget row chunk ordinal reading produced atCursor kind lsn isLatest

theorem inside_invariant (more : ordinal + (page spec tables budget chunk ordinal).length < chunk.rowCount) :
    TransformInvariant spec key (insideTables spec tables budget row chunk ordinal) := by
  obtain ⟨member, named⟩ := found_consumer tables.input key row found
  exact ⟨good.input, good.operator, good.streamId, good.stored, good.causal,
    written_shape spec key tables budget chunk ordinal good, rfl, row, member, named, first, flat, _,
    inside_reading spec key budget row chunk good reading stored atCursor kind inside more⟩

omit first flat found in
theorem passed_reading (whole : ordinal + (page spec tables budget chunk ordinal).length = chunk.rowCount) :
    Reading spec (passedTables spec tables key budget row chunk ordinal)
      { row with nextChunkSeq := row.nextChunkSeq + 1, consumedFrontierLsn := row.consumedFrontierLsn } 0 := by
  have produced := good.input.produced.stored.subset stored
  have counted := good.stored chunk produced
  have taken := page_taken spec tables budget chunk ordinal counted inside good.output.target
  refine ⟨rfl, fun started => absurd rfl started, ?_, ?_, ?_, ?_⟩
  · have isPage : page spec tables budget chunk ordinal = chunk.payload.drop ordinal := by
      obtain ⟨count, isPrefix⟩ := taken.isPrefix
      rw [counted.rows, isPrefix, List.length_take, List.length_drop] at whole
      rw [isPrefix]
      rw [counted.rows] at inside
      exact List.take_of_length_le (by rw [List.length_drop]; omega)
    have rows := read_rows_past good.input produced ordinal
    rw [← isPage, atCursor] at rows
    change outputRows (written spec tables budget chunk ordinal) = spec.image (readRows tables.input _ _)
    rw [written_rows, rows, image_append, reading.written]
    rfl
  · intro out member
    have within := written_targets spec key tables budget row chunk ordinal good reading produced inside out member
    exact (written_limits spec tables budget chunk ordinal).symm ▸ within
  · intro lsn isPublished
    obtain ⟨source, sourceProduced, isFrontier, passed, same⟩ :=
      reading.published lsn ((written_published_frontier spec tables budget chunk ordinal).symm.trans isPublished)
    exact ⟨source, sourceProduced, isFrontier, Nat.lt_succ_of_lt passed, same⟩
  · intro lsn isLatest
    obtain ⟨source, sourceProduced, isData, reached, same⟩ :=
      written_latest spec tables budget row chunk ordinal reading produced atCursor kind lsn isLatest
    exact ⟨source, sourceProduced, isData, Nat.le_succ_of_le reached, same⟩

theorem passed_invariant (whole : ordinal + (page spec tables budget chunk ordinal).length = chunk.rowCount) :
    TransformInvariant spec key (passedTables spec tables key budget row chunk ordinal) := by
  obtain ⟨member, named⟩ := found_consumer tables.input key row found
  have causal := data_move_causal good.input good.operator stored atCursor kind ⟨chunk.rowCount, chunk.payloadBytes, 0, 0⟩
  have input := moved_input_invariant good.input found (row.nextChunkSeq + 1) row.consumedFrontierLsn
    ⟨chunk.rowCount, chunk.payloadBytes, 0, 0⟩
    (chunk_move_fits good.input first chunk stored atCursor _ (Nat.le_refl _)) causal
  exact ⟨input, good.operator, good.streamId, good.stored, good.causal,
    written_shape spec key tables budget chunk ordinal good, rfl, _, moved_consumer found _ _ _, named,
    Nat.le_succ_of_le first, flat, 0,
    passed_reading spec key budget row chunk good reading stored atCursor kind inside whole⟩

end Data

section Frontier

variable (kind : chunk.chunkKind = .frontier) (start : ordinal = 0)

include kind start

theorem forwarded_invariant : TransformInvariant spec key (forwardedTables tables key row chunk) ∧
    Reading spec (forwardedTables tables key row chunk)
      { row with nextChunkSeq := row.nextChunkSeq + 1, consumedFrontierLsn := chunk.chunkLsn } 0 := by
  subst start
  obtain ⟨member, named⟩ := found_consumer tables.input key row found
  have produced := good.input.produced.stored.subset stored
  obtain ⟨raised, causal⟩ := frontier_move_causal good.input good.operator stored atCursor member flat kind {}
  have input := moved_input_invariant good.input found (row.nextChunkSeq + 1) chunk.chunkLsn {}
    (chunk_move_fits good.input first chunk stored atCursor _ raised) causal
  have unsaved : tables.continuation = none := reading.continuation
  have after : Reading spec (forwardedTables tables key row chunk)
      { row with nextChunkSeq := row.nextChunkSeq + 1, consumedFrontierLsn := chunk.chunkLsn } 0 := by
    refine ⟨unsaved, fun started => absurd rfl started, ?_, ?_, ?_, ?_⟩
    · have rows := read_rows_past good.input produced 0
      rw [(good.stored chunk produced).empty kind, List.drop_nil, List.append_nil, atCursor] at rows
      change outputRows (appendedHistory tables.output .frontier 0 0 chunk.chunkLsn []) =
        spec.image (readRows tables.input (row.nextChunkSeq + 1) 0)
      rw [rows, ← reading.written]
      simp [outputRows, appendedHistory, newChunk]
    · intro out outMember
      rcases List.mem_append.mp outMember with old | new
      · exact reading.targets out old
      · obtain rfl := List.mem_singleton.mp new
        exact ⟨Nat.zero_le _, .inl (Nat.zero_le _)⟩
    · intro lsn isPublished
      obtain rfl := Option.some.inj isPublished
      exact ⟨chunk, produced, kind, atCursor ▸ Nat.lt_succ_self _, rfl⟩
    · intro lsn isLatest
      obtain ⟨source, sourceProduced, isData, reached, same⟩ := reading.latest lsn isLatest
      exact ⟨source, sourceProduced, isData, Nat.le_succ_of_le reached, same⟩
  refine ⟨⟨input, good.operator, good.streamId, good.stored, good.causal,
    output_shape_appended good.output .frontier 0 0 chunk.chunkLsn [], ?_, _,
    moved_consumer found _ _ _, named, Nat.le_succ_of_le first, flat, 0, after⟩, after⟩
  change false = tables.continuation.isSome
  rw [unsaved]
  rfl

end Frontier

end Moves

-- Further inside the chunk at the cursor, or at the start of the next one.
def Onward (row : StreamConsumer) (ordinal : Nat) (after : StreamConsumer) (next : Nat) : Prop :=
  (after.nextChunkSeq = row.nextChunkSeq ∧ ordinal < next) ∨ (after.nextChunkSeq = row.nextChunkSeq + 1 ∧ next = 0)

-- The stage stands at a row of its input.
structure Stands (spec : TransformSpec Row Out) (key : ConsumerKey) (tables : TransformTables Row Out)
    (row : StreamConsumer) (ordinal : Nat) : Prop where
  good : TransformInvariant spec key tables
  found : tables.input.stream.findConsumer key = some row
  first : 1 ≤ row.nextChunkSeq
  flat : row.activationLsn = 0
  reading : Reading spec tables row ordinal

section Step

variable (spec : TransformSpec Row Out) (key : ConsumerKey) (tables : TransformTables Row Out)

theorem invariant_stands (good : TransformInvariant spec key tables) :
    ∃ row ordinal, Stands spec key tables row ordinal := by
  obtain ⟨row, member, named, first, flat, ordinal, reading⟩ := good.consumer
  exact ⟨row, ordinal, good, consumer_found good.input member named, first, flat, reading⟩

variable (budget : WorkBudget) (row : StreamConsumer) (ordinal : Nat) (stands : Stands spec key tables row ordinal)

include stands

-- A pending position is a stored chunk with rows left, or a frontier.
theorem cursor_chunk (pending : row.nextChunkSeq < tables.input.stream.nextChunkSeq) :
    ∃ chunk ∈ tables.input.stream.chunks, chunk.chunkSeq = row.nextChunkSeq ∧
      (chunk.chunkKind = .data → ordinal < chunk.rowCount) ∧ (chunk.chunkKind = .frontier → ordinal = 0) := by
  have good := stands.good
  obtain ⟨chunk, stored, atCursor⟩ := pending_stored good.input stands.found stands.first pending
  have produced := good.input.produced.stored.subset stored
  have same : ordinal ≠ 0 → chunk.chunkKind = .data ∧ ordinal < chunk.rowCount := by
    intro started
    obtain ⟨other, otherProduced, otherSeq, isData, inside⟩ := stands.reading.inside started
    rw [List.inj_on_of_nodup_map (produced_keys good.input) produced otherProduced (atCursor.trans otherSeq.symm)]
    exact ⟨isData, inside⟩
  refine ⟨chunk, stored, atCursor, ?_, ?_⟩
  · intro isData
    by_cases start : ordinal = 0
    · rw [start, (good.stored chunk produced).rows]
      exact List.length_pos_iff.mpr ((good.stored chunk produced).present isData)
    · exact (same start).2
  · intro isFrontier
    by_contra started
    rw [(same started).1] at isFrontier
    cases isFrontier

variable (pending : row.nextChunkSeq < tables.input.stream.nextChunkSeq)
  (flowing : tables.output.stream.backpressured = false)

include pending flowing

-- A step with work and room downstream commits, unless it has no number left
-- for what it writes.
theorem step_succeeds (numbers : tables.output.stream.nextChunkSeq ≠ bigintMax) :
    ∃ after, stepTransform spec tables key budget = .ok after := by
  obtain ⟨chunk, stored, atCursor, data, frontier⟩ := cursor_chunk spec key tables row ordinal stands pending
  obtain ⟨good, found, first, flat, reading⟩ := stands
  have produced := good.input.produced.stored.subset stored
  cases kind : chunk.chunkKind with
  | data =>
      have inside := data kind
      have length := page_length spec tables budget chunk ordinal (good.stored chunk produced) inside good.output.target
      rcases Nat.lt_or_eq_of_le length.2 with more | whole
      · exact ⟨_, step_inside spec key tables budget row chunk ordinal good found reading first stored atCursor kind inside
          flowing (fun _ => numbers) more⟩
      · exact ⟨_, step_whole spec key tables budget row chunk ordinal good found reading first stored atCursor kind inside
          flowing (fun _ => numbers) whole⟩
  | frontier =>
      have start := frontier kind
      subst start
      exact ⟨_, step_frontier spec key tables budget row chunk good found reading first flat stored atCursor kind flowing
        numbers⟩

theorem step_moves (after : TransformTables Row Out) (ok : stepTransform spec tables key budget = .ok after) :
    ∃ next nextOrdinal, Stands spec key after next nextOrdinal ∧ Onward row ordinal next nextOrdinal ∧
      after.input.produced = tables.input.produced := by
  obtain ⟨chunk, stored, atCursor, data, frontier⟩ := cursor_chunk spec key tables row ordinal stands pending
  obtain ⟨good, found, first, flat, reading⟩ := stands
  obtain ⟨member, named⟩ := found_consumer tables.input key row found
  have produced := good.input.produced.stored.subset stored
  cases kind : chunk.chunkKind with
  | data =>
      have inside := data kind
      have numbers := data_needs_number spec key tables budget row chunk ordinal good found reading first stored atCursor
        kind inside flowing after ok
      have length := page_length spec tables budget chunk ordinal (good.stored chunk produced) inside good.output.target
      rcases Nat.lt_or_eq_of_le length.2 with more | whole
      · rw [step_inside spec key tables budget row chunk ordinal good found reading first stored atCursor kind inside
          flowing numbers more] at ok
        obtain rfl := Except.ok.inj ok
        have kept := inside_invariant spec key budget row chunk good found reading first flat stored atCursor
          kind inside more
        exact ⟨row, _, ⟨kept, found, first, flat, inside_reading spec key budget row chunk good reading stored
          atCursor kind inside more⟩, .inl ⟨rfl, by omega⟩, rfl⟩
      · rw [step_whole spec key tables budget row chunk ordinal good found reading first stored atCursor kind inside
          flowing numbers whole] at ok
        obtain rfl := Except.ok.inj ok
        have kept := passed_invariant spec key budget row chunk good found reading first flat stored atCursor
          kind inside whole
        exact ⟨_, 0, ⟨kept, consumer_found kept.input (moved_consumer found _ _ _) named,
          Nat.le_succ_of_le first, flat, passed_reading spec key budget row chunk good reading stored
            atCursor kind inside whole⟩, .inr ⟨rfl, rfl⟩, rfl⟩
  | frontier =>
      have start := frontier kind
      subst start
      have numbers := frontier_needs_number spec key tables budget row chunk good found reading first stored atCursor kind
        flowing after ok
      rw [step_frontier spec key tables budget row chunk good found reading first flat stored atCursor kind flowing
        numbers] at ok
      obtain rfl := Except.ok.inj ok
      obtain ⟨kept, forward⟩ := forwarded_invariant spec key row chunk good found reading first flat stored atCursor kind rfl
      exact ⟨_, 0, ⟨kept, consumer_found kept.input (moved_consumer found _ _ _) named,
        Nat.le_succ_of_le first, flat, forward⟩, .inr ⟨rfl, rfl⟩, rfl⟩

end Step

-- A step the stage cannot take yet leaves everything as it was.
theorem step_waits (spec : TransformSpec Row Out) (key : ConsumerKey) (tables after : TransformTables Row Out)
    (budget : WorkBudget) (row : StreamConsumer) (ordinal : Nat) (stands : Stands spec key tables row ordinal)
    (waits : tables.output.stream.backpressured = true ∨ ¬ row.nextChunkSeq < tables.input.stream.nextChunkSeq)
    (ok : stepTransform spec tables key budget = .ok after) : after = tables := by
  refine run_kernel_waits stands.found stands.good.operator waits (fun nothing => ?_) ok
  have start : ordinal = 0 := by
    by_contra started
    obtain ⟨chunk, produced, atCursor, _⟩ := stands.reading.inside started
    have below := produced_below tables.input stands.good.input.produced chunk produced
    rw [atCursor] at below
    exact nothing below
  rw [stands.good.checkpoint, stands.reading.continuation, dataCursor, if_pos start]
  rfl

-- Every call leaves the stage where it is, or further on.
theorem call_stands {spec : TransformSpec Row Out} {key : ConsumerKey} {tables after : TransformTables Row Out}
    {call : TransformCall Row Out key} {row : StreamConsumer} {ordinal : Nat} (stands : Stands spec key tables row ordinal)
    (produces : Produces spec key tables call) (ok : transformStep spec key tables call = .ok after) :
    ∃ next nextOrdinal, Stands spec key after next nextOrdinal ∧
      ((next = row ∧ nextOrdinal = ordinal) ∨ Onward row ordinal next nextOrdinal) ∧
      ∃ more, after.input.produced = tables.input.produced ++ more := by
  obtain ⟨member, named⟩ := found_consumer tables.input key row stands.found
  cases call with
  | source op other =>
      obtain ⟨input, moved, rfl⟩ := except_map_ok ok
      have good := transform_source_keeps spec key tables stands.good op other produces input moved
      have kept := consumer_kept other moved member named
      obtain ⟨more, grown, _⟩ := stored_step produces moved
      exact ⟨row, ordinal, ⟨good, consumer_found good.input kept named, stands.first, stands.flat,
        source_reading spec key tables stands.good produces moved member stands.first stands.reading⟩,
        .inl ⟨rfl, rfl⟩, more, grown⟩
  | reader op reads =>
      obtain ⟨output, moved, rfl⟩ := except_map_ok ok
      exact ⟨row, ordinal, ⟨transform_reader_keeps spec key tables stands.good op reads output moved, stands.found,
        stands.first, stands.flat, reader_reading spec tables reads moved stands.reading⟩,
        .inl ⟨rfl, rfl⟩, [], (List.append_nil _).symm⟩
  | step budget =>
      by_cases goes : tables.output.stream.backpressured = false ∧ row.nextChunkSeq < tables.input.stream.nextChunkSeq
      · obtain ⟨next, nextOrdinal, there, onward, same⟩ :=
          step_moves spec key tables budget row ordinal stands goes.2 goes.1 after ok
        exact ⟨next, nextOrdinal, there, .inr onward, [], same.trans (List.append_nil _).symm⟩
      · have waits : tables.output.stream.backpressured = true ∨ ¬ row.nextChunkSeq < tables.input.stream.nextChunkSeq := by
          rw [not_and_or, Bool.not_eq_false] at goes
          exact goes
        obtain rfl := step_waits spec key tables after budget row ordinal stands waits ok
        exact ⟨row, ordinal, stands, .inl ⟨rfl, rfl⟩, [], (List.append_nil _).symm⟩

-- A run that takes at least `count` steps of the stage with room downstream.
inductive Stepping (spec : TransformSpec Row Out) (key : ConsumerKey) (start : TransformTables Row Out) :
    Nat → TransformTables Row Out → Prop where
  | here : Stepping spec key start 0 start
  | around (count : Nat) (tables after : TransformTables Row Out) (call : TransformCall Row Out key)
      (previous : Stepping spec key start count tables) (produces : Produces spec key tables call)
      (taken : transformStep spec key tables call = .ok after) : Stepping spec key start count after
  | step (count : Nat) (tables after : TransformTables Row Out) (budget : WorkBudget)
      (previous : Stepping spec key start count tables) (flowing : tables.output.stream.backpressured = false)
      (taken : stepTransform spec tables key budget = .ok after) : Stepping spec key start (count + 1) after

-- The stage is past the chunk, its continuation is gone, and it has written
-- the image of the chunk and nothing else.
structure ChunkDone (spec : TransformSpec Row Out) (key : ConsumerKey) (before after : TransformTables Row Out)
    (chunk : EffectChunk Row) : Prop where
  removed : after.continuation = none
  past : ∃ row, after.input.stream.findConsumer key = some row ∧ row.nextChunkSeq = chunk.chunkSeq + 1
  written : outputRows after.output = outputRows before.output ++ spec.image chunk.payload

-- On every run that steps often enough the chunk is done within one step for
-- each of its rows, and the run goes on from there.
def Finishes (spec : TransformSpec Row Out) (key : ConsumerKey) (tables : TransformTables Row Out)
    (chunk : EffectChunk Row) : Prop :=
  ∀ count later, Stepping spec key tables count later → chunk.rowCount ≤ count → ∃ steps done,
    steps ≤ chunk.rowCount ∧ Stepping spec key tables steps done ∧ ChunkDone spec key tables done chunk ∧
    Path (transformStep spec key) (Produces spec key) done later

theorem path_invariant_kept (spec : TransformSpec Row Out) (key : ConsumerKey) (start tables : TransformTables Row Out)
    (ran : Path (transformStep spec key) (Produces spec key) start tables) (good : TransformInvariant spec key start) :
    TransformInvariant spec key tables := by
  apply path_invariant (TransformInvariant spec key) _ start tables good ran
  intro tables call after before produces taken
  obtain ⟨row, ordinal, stands⟩ := invariant_stands spec key tables before
  obtain ⟨_, _, there, _⟩ := call_stands stands produces taken
  exact there.good

section Chunk

variable (spec : TransformSpec Row Out) (key : ConsumerKey) (tables : TransformTables Row Out) (chunk : EffectChunk Row)

-- The run is inside the chunk, a row further at least for each step, or has
-- been past it.
def Inside (spec : TransformSpec Row Out) (key : ConsumerKey) (tables : TransformTables Row Out)
    (chunk : EffectChunk Row) (count : Nat) (later : TransformTables Row Out) : Prop :=
  ∃ row ordinal, Stands spec key later row ordinal ∧ row.nextChunkSeq = chunk.chunkSeq ∧ count ≤ ordinal ∧
    ordinal < chunk.rowCount ∧ ∃ more, later.input.produced = tables.input.produced ++ more

def Past (spec : TransformSpec Row Out) (key : ConsumerKey) (tables : TransformTables Row Out) (chunk : EffectChunk Row)
    (later : TransformTables Row Out) : Prop :=
  ∃ steps done, steps ≤ chunk.rowCount ∧ Stepping spec key tables steps done ∧ ChunkDone spec key tables done chunk ∧
    Path (transformStep spec key) (Produces spec key) done later

variable (row : StreamConsumer) (stands : Stands spec key tables row 0) (produced : chunk ∈ tables.input.produced)
  (atCursor : chunk.chunkSeq = row.nextChunkSeq)

include stands produced atCursor

theorem chunk_done (done : TransformTables Row Out) (past : StreamConsumer) (there : Stands spec key done past 0)
    (isPast : past.nextChunkSeq = chunk.chunkSeq + 1) (more : List (EffectChunk Row))
    (grown : done.input.produced = tables.input.produced ++ more) : ChunkDone spec key tables done chunk := by
  have later : chunk ∈ done.input.produced := grown ▸ List.mem_append_left _ produced
  have below := produced_below tables.input stands.good.input.produced chunk produced
  have length := stands.good.input.produced.next
  have first := stands.first
  have rows := read_rows_past there.good.input later 0
  rw [List.drop_zero, read_rows_grow tables.input more done.input grown chunk.chunkSeq 0 (by omega)
    (fun started => absurd rfl started) (by omega)] at rows
  refine ⟨there.reading.continuation, ⟨past, there.found, isPast⟩, ?_⟩
  rw [there.reading.written, isPast, rows, image_append, atCursor, ← stands.reading.written]

-- From inside its chunk a stage moves further inside, or is done with it.
theorem onward_run {later : TransformTables Row Out} {count ordinal : Nat} {here next : StreamConsumer} {nextOrdinal : Nat}
    (atChunk : here.nextChunkSeq = chunk.chunkSeq) (low : count ≤ ordinal) (inside : ordinal < chunk.rowCount)
    (there : Stands spec key later next nextOrdinal) (onward : Onward here ordinal next nextOrdinal)
    {more : List (EffectChunk Row)} (grown : later.input.produced = tables.input.produced ++ more) {steps : Nat}
    (few : steps ≤ count + 1) (stepping : Stepping spec key tables steps later) :
    Inside spec key tables chunk (count + 1) later ∨ Past spec key tables chunk later := by
  rcases onward with ⟨sameNext, further⟩ | ⟨isPast, start⟩
  · obtain ⟨other, otherProduced, otherSeq, _, below⟩ := there.reading.inside (by omega)
    have later : chunk ∈ later.input.produced := grown ▸ List.mem_append_left _ produced
    have same := List.inj_on_of_nodup_map (produced_keys there.good.input) otherProduced later
      (otherSeq.trans (sameNext.trans atChunk))
    rw [same] at below
    exact .inl ⟨next, nextOrdinal, there, sameNext.trans atChunk, by omega, below, more, grown⟩
  · subst start
    exact .inr ⟨steps, later, by omega, stepping, chunk_done spec key tables chunk row stands produced atCursor later next
      there (by rw [isPast, atChunk]) more grown, .here⟩

theorem stepping_run (kind : chunk.chunkKind = .data) (count : Nat) (later : TransformTables Row Out)
    (ran : Stepping spec key tables count later) :
    Inside spec key tables chunk count later ∨ Past spec key tables chunk later := by
  induction ran with
  | here =>
      have rows := (stands.good.stored chunk produced).rows
      have present := List.length_pos_iff.mpr ((stands.good.stored chunk produced).present kind)
      exact .inl ⟨row, 0, stands, atCursor.symm, Nat.le_refl 0, by omega, [], (List.append_nil _).symm⟩
  | around count before after call previous produces taken ih =>
      rcases ih with ⟨here, ordinal, there, atChunk, low, inside, more, grown⟩ | ⟨steps, done, few, stepping, isDone, path⟩
      · obtain ⟨next, nextOrdinal, later, moved, extra, further⟩ := call_stands there produces taken
        have total : after.input.produced = tables.input.produced ++ (more ++ extra) := by
          rw [further, grown, List.append_assoc]
        rcases moved with ⟨rfl, rfl⟩ | onward
        · exact .inl ⟨next, nextOrdinal, later, atChunk, low, inside, _, total⟩
        · rcases onward_run spec key tables chunk row stands produced atCursor
            atChunk low inside later onward total (Nat.le_succ _)
            (.around count before after call previous produces taken) with
            ⟨next, nextOrdinal, later, atChunk, low, rest⟩ | past
          · exact .inl ⟨next, nextOrdinal, later, atChunk, Nat.le_of_succ_le low, rest⟩
          · exact .inr past
      · exact .inr ⟨steps, done, few, stepping, isDone, .next before after call path produces taken⟩
  | step count before after budget previous flowing taken ih =>
      rcases ih with ⟨here, ordinal, there, atChunk, low, inside, more, grown⟩ | ⟨steps, done, few, stepping, isDone, path⟩
      · have pending : here.nextChunkSeq < before.input.stream.nextChunkSeq := by
          have later : chunk ∈ before.input.produced := grown ▸ List.mem_append_left _ produced
          have below := produced_below before.input there.good.input.produced chunk later
          rwa [← atChunk] at below
        obtain ⟨next, nextOrdinal, later, onward, same⟩ :=
          step_moves spec key before budget here ordinal there pending flowing after taken
        exact onward_run spec key tables chunk row stands produced atCursor
          atChunk low inside later onward (same.trans grown) (Nat.le_refl _)
          (.step count before after budget previous flowing taken)
      · exact .inr ⟨steps, done, few, stepping, isDone, .next before after (.step budget) path trivial taken⟩

theorem chunk_finishes (kind : chunk.chunkKind = .data) : Finishes spec key tables chunk := by
  intro count later stepping enough
  rcases stepping_run spec key tables chunk row stands produced atCursor kind count later stepping with
    ⟨_, ordinal, _, _, low, inside, _⟩ | past
  · omega
  · exact past

end Chunk

-- What holds of a stage wherever its run has taken it.
structure TransformExact (spec : TransformSpec Row Out) (key : ConsumerKey) (tables : TransformTables Row Out)
    (row : StreamConsumer) : Prop where
  written : ∃ ordinal, tables.continuation = dataCursor tables.input.stream.streamId row.nextChunkSeq ordinal ∧
    outputRows tables.output = spec.image (readRows tables.input row.nextChunkSeq ordinal)
  targets : ∀ chunk ∈ tables.output.produced,
    WithinTarget spec.scanPlaceholder tables.output.stream.toStreamLimits chunk
  commits : row.nextChunkSeq < tables.input.stream.nextChunkSeq → tables.output.stream.backpressured = false →
    tables.output.stream.nextChunkSeq ≠ bigintMax → ∀ budget, ∃ after, stepTransform spec tables key budget = .ok after
  finishes : ∀ chunk ∈ tables.input.produced, chunk.chunkKind = .data → chunk.chunkSeq = row.nextChunkSeq →
    tables.continuation = none → Finishes spec key tables chunk

-- A Filter or Project loses no row and duplicates none, whatever its budgets
-- and targets are and whatever happens around its steps.
theorem transform_exact (spec : TransformSpec Row Out) (key : ConsumerKey) (start tables : TransformTables Row Out)
    (registered : TransformRegistered key start)
    (ran : Path (transformStep spec key) (Produces spec key) start tables) :
    ∃ row, tables.input.stream.findConsumer key = some row ∧ TransformExact spec key tables row := by
  have good := path_invariant_kept spec key start tables ran (transform_registered_invariant spec key start registered)
  obtain ⟨row, ordinal, stands⟩ := invariant_stands spec key tables good
  refine ⟨row, stands.found, ⟨ordinal, stands.reading.continuation, stands.reading.written⟩, stands.reading.targets, ?_, ?_⟩
  · intro pending flowing numbers budget
    exact step_succeeds spec key tables budget row ordinal stands pending flowing numbers
  · intro chunk produced kind atCursor fresh
    have start : ordinal = 0 := by
      by_contra started
      have saved := stands.reading.continuation
      rw [fresh, dataCursor, if_neg started] at saved
      cases saved
    subst start
    exact chunk_finishes spec key tables chunk row stands produced atCursor kind

def evenRows : TransformSpec Nat Nat where
  operator := .filter (fun value => some (decide (value % 2 = 0))) id
  inputLength := fun _ => 1
  outputLength := fun _ => 1

-- A Filter registered over an operator stream, with one reader.
def registeredFilter : TransformTables Nat Nat where
  input := attempts historyStep ⟨freshStream smallLimits 2 (.operator 900 0), none, []⟩ [.attach ⟨true, false⟩ scanConsumer 0]
  output := ⟨{ freshStream smallLimits 3 (.operator 900 1) with consumers := [⟨⟨900, 2, 0⟩, 1, 0, 0⟩] }, none, []⟩
  hasContinuation := false
  continuation := none
  state := ()

theorem filter_registered : TransformRegistered scanConsumer registeredFilter where
  input := ⟨_, ⟨true, false⟩, 0, .start _ ⟨smallLimits, 2, .operator 900 0, none, rfl⟩, rfl⟩
  operator := rfl
  streamId := by decide
  output := ⟨smallLimits, 3, 900, 1, [⟨⟨900, 2, 0⟩, 1, 0, 0⟩], by decide, by decide, rfl⟩
  continuation := rfl
  checkpoint := rfl

def narrowBudget : WorkBudget := ⟨2, 64, 8, 64, Nat.succ_pos 1, Nat.succ_pos 63, Nat.succ_pos 7, Nat.succ_pos 63⟩

-- Three rows arrive.
def fedFilter : TransformTables Nat Nat :=
  { registeredFilter with
    input := attempts historyStep registeredFilter.input [.append 1 .data 3 27 10 [⟨1, 1⟩, ⟨1, 2⟩, ⟨-1, 4⟩]] }

theorem filter_fed : Path (transformStep evenRows scanConsumer) (Produces evenRows scanConsumer) registeredFilter fedFilter :=
  .next _ _ (.source (.append 1 .data 3 27 10 [⟨1, 1⟩, ⟨1, 2⟩, ⟨-1, 4⟩]) trivial) .here ⟨rfl, rfl, fun _ => rfl⟩ rfl

-- A step then reads two of them and writes one.
theorem transform_exact_inside : ∃ tables row, Path (transformStep evenRows scanConsumer) (Produces evenRows scanConsumer)
      registeredFilter tables ∧ outputRows tables.output = [⟨1, 2⟩] ∧ TransformExact evenRows scanConsumer tables row := by
  have steps : (stepTransform evenRows fedFilter scanConsumer narrowBudget).map (fun after => outputRows after.output) =
      .ok [⟨1, 2⟩] := by decide
  obtain ⟨tables, taken, rows⟩ := except_map_ok steps
  have ran : Path (transformStep evenRows scanConsumer) (Produces evenRows scanConsumer) registeredFilter tables :=
    .next fedFilter tables (.step narrowBudget) filter_fed trivial taken
  obtain ⟨row, _, exact⟩ := transform_exact evenRows scanConsumer registeredFilter tables filter_registered ran
  exact ⟨tables, row, ran, rows, exact⟩

end Shiba.Linear.Transform
