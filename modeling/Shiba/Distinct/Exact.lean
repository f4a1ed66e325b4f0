import Shiba.Distinct.Drain

set_option autoImplicit false

namespace Shiba.Distinct

open Handover Weighted Transition Shiba.Stream Shiba.Execution Shiba.Linear Shiba.Linear.Transform
open Shiba.Sink (InputPosition)

variable {Row Key Out Bytes : Type}

theorem written_rows (tables : DistinctTables Row Key Out Bytes) (effects : List (QueuedEffect Out Bytes)) (lsn : Lsn) :
    itemsOf (outputRows (writtenOutput tables effects lsn)) =
      itemsOf (outputRows tables.output) ++ effects.map signedRow := by
  unfold writtenOutput
  split
  · rename_i none
    rw [List.length_eq_zero_iff.mp none, List.map_nil, List.append_nil]
  · have rows : outputRows (appendedHistory tables.output .data effects.length (effectBytes effects) lsn (effectRows effects)) =
        outputRows tables.output ++ effectRows effects := by
      simp [outputRows, appendedHistory, newChunk]
    have signed : itemsOf (effectRows effects) = effects.map signedRow := List.map_map
    rw [rows, items_append, signed]

theorem promised_turned (tables : DistinctTables Row Key Out Bytes) (state : DistinctState Key Out Bytes)
    (effects : List (QueuedEffect Out Bytes)) (lsn : Lsn) (input : StreamHistory Row) (next : Option DistinctContinuation) :
    promised (turnedTables tables state effects lsn input next) =
      itemsOf (outputRows tables.output) ++ effects.map signedRow ++ state.queue.map signedRow := by
  rw [← written_rows tables effects lsn]
  rfl

variable [LinearOrder Key] [LinearOrder Bytes] [DecidableEq Row] [DecidableEq Out]

omit [LinearOrder Bytes] [DecidableEq Row] in
-- A new group shows nothing.
theorem resolved_rows (keys : List Key) (state : DistinctState Key Out Bytes) (output : Out) :
    shownRows (keys.foldl resolveGroup state).groups output = shownRows state.groups output := by
  induction keys generalizing state with
  | nil => rfl
  | cons key keys ih =>
      rw [List.foldl_cons, ih]
      unfold resolveGroup
      split
      · rfl
      · simp [shownRows, shows]

section Turned

variable (spec : DistinctSpec Row Key Out Bytes) (key : ConsumerKey) (tables : DistinctTables Row Key Out Bytes)
  (row : StreamConsumer) (ordinal : Nat) (stands : Stands spec key tables row ordinal)
  (chunk : EffectChunk Row) (stored : chunk ∈ tables.input.stream.chunks) (atCursor : chunk.chunkSeq = row.nextChunkSeq)
  (kind : chunk.chunkKind = .data)

include stands stored atCursor kind

-- A step leaves the stage at the row it went on to, or past the chunk.
theorem turned_stands (state : DistinctState Key Out Bytes) (effects : List (QueuedEffect Out Bytes)) (nextRow : Nat)
    (progress : nextRow ≠ 0) (within : nextRow ≤ chunk.rowCount)
    (admitted : Admitted spec (readRows tables.input row.nextChunkSeq nextRow) state)
    (drainable : ∀ effect ∈ state.queue, Drainable spec chunk.chunkLsn effect)
    (shown : ∀ output, weight (itemsOf (outputRows tables.output) ++ effects.map signedRow ++ state.queue.map signedRow) output =
      shownRows state.groups output)
    (running : ∀ length output,
      weight ((itemsOf (outputRows tables.output) ++ effects.map signedRow ++ state.queue.map signedRow).take length) output = 0 ∨
        weight ((itemsOf (outputRows tables.output) ++ effects.map signedRow ++ state.queue.map signedRow).take length)
          output = 1) : ∃ next nextOrdinal,
      Stands spec key (turnedTables tables state effects chunk.chunkLsn (onwardInput key tables row chunk nextRow state.queue)
        (onwardCursor tables row chunk nextRow state.queue)) next nextOrdinal := by
  obtain ⟨good, found, first, flat, standing⟩ := stands
  obtain ⟨member, named⟩ := found_consumer tables.input key row found
  have produced := good.input.produced.stored.subset stored
  have shape : OutputShape (writtenOutput tables effects chunk.chunkLsn).stream := by
    unfold writtenOutput
    split
    · exact good.output
    · exact output_shape_appended good.output .data _ _ _ _
  have follows : Follows tables.input (writtenOutput tables effects chunk.chunkLsn).stream row.nextChunkSeq := by
    unfold writtenOutput
    split
    · exact standing.follows
    · exact follows_data standing.follows produced atCursor kind _ _ _
  by_cases stays : 0 < state.queue.length ∨ nextRow < chunk.rowCount
  · have input : onwardInput key tables row chunk nextRow state.queue = tables.input := by
      unfold onwardInput finishedInput
      rcases stays with queued | more
      · rw [if_pos queued]
      · rw [if_pos more, ite_self]
    have cursor : onwardCursor tables row chunk nextRow state.queue =
        standingCursor tables.input.stream.streamId row.nextChunkSeq nextRow (!state.queue.isEmpty) := by
      unfold onwardCursor finishedCursor standingCursor
      by_cases queued : 0 < state.queue.length
      · have some : (!state.queue.isEmpty) = true := by simpa [List.length_pos_iff] using queued
        rw [if_pos queued, some, if_pos rfl]
      · have none : (!state.queue.isEmpty) = false := by simpa [List.length_pos_iff] using queued
        rw [if_neg queued, if_pos (stays.resolve_left queued), none, if_neg Bool.false_ne_true, if_neg progress]
    rw [input, cursor]
    refine ⟨row, nextRow, ⟨good.input, good.operator, good.streamId, good.stored, good.causal, good.never, shape, rfl⟩, found,
      first, flat, rfl, ?_, fun start => absurd start progress, admitted, ?_, ?_, follows⟩
    · exact fun _ => ⟨chunk, produced, atCursor, kind, within,
        fun empty => stays.resolve_left (by simp [show state.queue = [] from empty]), drainable⟩
    · rw [promised_turned]
      exact shown
    · rw [promised_turned]
      exact running
  · obtain ⟨empty, past⟩ := not_or.mp stays
    have whole : nextRow = chunk.rowCount := Nat.le_antisymm within (Nat.le_of_not_lt past)
    have nothing : state.queue = [] := List.length_eq_zero_iff.mp (Nat.eq_zero_of_not_pos empty)
    have input : onwardInput key tables row chunk nextRow state.queue = movedInput tables.input key row (row.nextChunkSeq + 1)
        row.consumedFrontierLsn ⟨chunk.rowCount, chunk.payloadBytes, 0, 0⟩ := by
      rw [onwardInput, if_neg empty, finishedInput, if_neg past]
    have cursor : onwardCursor tables row chunk nextRow state.queue = none := by
      rw [onwardCursor, if_neg empty, finishedCursor, if_neg past]
    have causal := data_move_causal good.input good.operator stored atCursor kind ⟨chunk.rowCount, chunk.payloadBytes, 0, 0⟩
    have moved := moved_input_invariant good.input found (row.nextChunkSeq + 1) row.consumedFrontierLsn
      ⟨chunk.rowCount, chunk.payloadBytes, 0, 0⟩
      (chunk_move_fits good.input first chunk stored atCursor _ (Nat.le_refl _)) causal
    have rows := read_rows_past good.input produced nextRow
    have counted := (good.stored chunk produced).rows
    rw [whole, counted, List.drop_length, List.append_nil, atCursor, ← counted, ← whole] at rows
    rw [input, cursor]
    refine ⟨_, 0, ⟨moved, good.operator, good.streamId, good.stored, good.causal, good.never, shape, rfl⟩,
      consumer_found moved (moved_consumer found _ _ _) named, Nat.le_succ_of_le first, flat, ?_,
      fun wrong => absurd rfl wrong, fun _ => nothing, ?_, ?_, ?_,
      follows_grown (follows_onward follows) _ fun _ there => there⟩
    · change none = standingCursor _ _ 0 (!state.queue.isEmpty)
      rw [nothing]
      rfl
    · change Admitted spec (readRows tables.input (row.nextChunkSeq + 1) 0) state
      rw [rows]
      exact admitted
    · rw [promised_turned]
      exact shown
    · rw [promised_turned]
      exact running

theorem applied_stands (budget : WorkBudget) (inside : ordinal < chunk.rowCount) (drained : tables.state.queue = [])
    (fits : Fits spec (readRows tables.input row.nextChunkSeq ordinal) (pageOf spec budget chunk ordinal)) :
    ∃ next nextOrdinal, Stands spec key (turnedTables tables (appliedState spec tables budget chunk ordinal) [] chunk.chunkLsn
      (onwardInput key tables row chunk (ordinal + (pageOf spec budget chunk ordinal).length)
        (appliedState spec tables budget chunk ordinal).queue)
      (onwardCursor tables row chunk (ordinal + (pageOf spec budget chunk ordinal).length)
        (appliedState spec tables budget chunk ordinal).queue)) next nextOrdinal := by
  obtain ⟨count, _, some, within, _⟩ := page_taken spec key tables budget row ordinal stands chunk stored inside
  have rows := page_rows spec key tables budget row ordinal stands chunk stored atCursor inside
  have never := page_never spec key tables budget row ordinal stands chunk stored atCursor inside
  have admitted := stands.standing.admitted
  have pending := pending_state spec _ (pageOf spec budget chunk ordinal) never tables.state admitted
  obtain ⟨_, sameQueue⟩ := admitted_touched spec _ (pageOf spec budget chunk ordinal) tables.state admitted
  have after := reconciled_admitted spec _ _ chunk.chunkLsn never _ pending fits
  obtain ⟨isLegs, drainable⟩ := effects_legs spec _ _ chunk.chunkLsn never _ pending
  have apart := slots_apart spec _ _ _ pending
  have queued : (appliedState spec tables budget chunk ordinal).queue =
      pageEffects spec chunk.chunkLsn (admittedState spec (pageOf spec budget chunk ordinal) tables.state) := by
    rw [appliedState, reconciledState, sameQueue, drained, List.nil_append]
  have before : ∀ output, weight (itemsOf (outputRows tables.output)) output =
      held ((admittedState spec (pageOf spec budget chunk ordinal) tables.state).groups.map
        (slotOf (admittedState spec (pageOf spec budget chunk ordinal) tables.state))) output := by
    intro output
    have shown := stands.standing.shown output
    rw [promised, drained, List.map_nil, List.append_nil] at shown
    rw [shown, shown_before]
    exact (resolved_rows _ tables.state output).symm
  apply turned_stands spec key tables row ordinal stands chunk stored atCursor kind (appliedState spec tables budget chunk ordinal)
    [] (ordinal + (pageOf spec budget chunk ordinal).length) (by omega) within
  · rw [rows]
    exact after
  · rw [queued]
    exact drainable
  · intro output
    rw [List.map_nil, List.append_nil, queued, isLegs, weight_append, before output, legs_total]
    exact shown_after spec _ _ chunk.chunkLsn never _ pending output
  · intro length output
    rw [List.map_nil, List.append_nil, queued, isLegs, List.take_append, weight_append]
    by_cases short : length ≤ (itemsOf (outputRows tables.output)).length
    · have old := stands.standing.running length output
      rw [promised, drained, List.map_nil, List.append_nil] at old
      rw [Nat.sub_eq_zero_of_le short, List.take_zero, weight_nil, Int.add_zero]
      exact old
    · rw [List.take_of_length_le (Nat.le_of_not_le short), before output]
      exact legs_running _ apart output _

theorem drained_stands (budget : WorkBudget) (started : Started spec tables row.nextChunkSeq ordinal chunk)
    (queued : tables.state.queue ≠ []) : ∃ next nextOrdinal,
      Stands spec key (turnedTables tables (drainedState tables budget) (drainOf tables budget) chunk.chunkLsn
        (onwardInput key tables row chunk ordinal (drainedState tables budget).queue)
        (onwardCursor tables row chunk ordinal (drainedState tables budget).queue)) next nextOrdinal := by
  obtain ⟨count, isTaken, some, _⟩ := drain_taken budget stands queued
  have whole : drainOf tables budget ++ (drainedState tables budget).queue = tables.state.queue := by
    have sameLength : (drainOf tables budget).length = min count tables.state.queue.length := by
      rw [isTaken, List.length_take]
    have rest : (drainedState tables budget).queue = tables.state.queue.drop count := by
      rw [drainedState, sameLength]
      by_cases long : count ≤ tables.state.queue.length
      · rw [Nat.min_eq_left long]
      · rw [Nat.min_eq_right (Nat.le_of_not_le long), List.drop_length, List.drop_eq_nil_of_le (Nat.le_of_not_le long)]
    rw [rest, isTaken, List.take_append_drop]
  have same : itemsOf (outputRows tables.output) ++ (drainOf tables budget).map signedRow ++
      (drainedState tables budget).queue.map signedRow = promised tables := by
    rw [promised, List.append_assoc, ← List.map_append, whole]
  have admitted := stands.standing.admitted
  have progress : ordinal ≠ 0 := fun start => queued (stands.standing.fresh start)
  apply turned_stands spec key tables row ordinal stands chunk stored atCursor kind (drainedState tables budget)
    (drainOf tables budget) ordinal progress started.within
  · exact ⟨admitted.grouped, admitted.bagged, admitted.shown, admitted.positive, admitted.covers, admitted.bounded,
      admitted.matching, admitted.touched⟩
  · exact fun effect member => started.drainable effect (List.mem_of_mem_drop member)
  · rw [same]
    exact stands.standing.shown
  · rw [same]
    exact stands.standing.running

end Turned

section Frontier

variable (spec : DistinctSpec Row Key Out Bytes) (key : ConsumerKey) (tables : DistinctTables Row Key Out Bytes)
  (row : StreamConsumer) (stands : Stands spec key tables row 0)
  (chunk : EffectChunk Row) (stored : chunk ∈ tables.input.stream.chunks) (atCursor : chunk.chunkSeq = row.nextChunkSeq)
  (kind : chunk.chunkKind = .frontier)

include stands stored atCursor kind

theorem forwarded_stands : ∃ next nextOrdinal, Stands spec key (forwardedTables key tables row chunk) next nextOrdinal := by
  obtain ⟨good, found, first, flat, standing⟩ := stands
  obtain ⟨member, named⟩ := found_consumer tables.input key row found
  have produced := good.input.produced.stored.subset stored
  obtain ⟨raised, causal⟩ := frontier_move_causal good.input good.operator stored atCursor member flat kind {}
  have moved := moved_input_invariant good.input found (row.nextChunkSeq + 1) chunk.chunkLsn {}
    (chunk_move_fits good.input first chunk stored atCursor _ raised) causal
  have rows := read_rows_past good.input produced 0
  rw [(good.stored chunk produced).empty kind, List.drop_nil, List.append_nil, atCursor] at rows
  have follows := follows_frontier standing.follows produced atCursor kind
  have same : promised (forwardedTables key tables row chunk) = promised tables := by
    simp [promised, forwardedTables, outputRows, appendedHistory, newChunk]
  have nothing := standing.fresh rfl
  refine ⟨_, 0, ⟨moved, good.operator, good.streamId, good.stored, good.causal, good.never,
    output_shape_appended good.output .frontier 0 0 chunk.chunkLsn [], rfl⟩,
    consumer_found moved (moved_consumer found _ _ _) named, Nat.le_succ_of_le first, flat, ?_,
    fun wrong => absurd rfl wrong, fun _ => nothing, ?_, ?_, ?_,
    follows_grown follows _ fun _ there => there⟩
  · change none = standingCursor _ _ 0 (!tables.state.queue.isEmpty)
    rw [nothing]
    rfl
  · change Admitted spec (readRows tables.input (row.nextChunkSeq + 1) 0) tables.state
    rw [rows]
    exact standing.admitted
  · rw [same]
    exact standing.shown
  · rw [same]
    exact standing.running

end Frontier

section Calls

variable (spec : DistinctSpec Row Key Out Bytes) (key : ConsumerKey) (tables : DistinctTables Row Key Out Bytes)
  (row : StreamConsumer) (ordinal : Nat) (stands : Stands spec key tables row ordinal)

include stands

-- A pending position is a queue, rows left in a stored chunk, or a frontier.
theorem cursor_chunk (pending : row.nextChunkSeq < tables.input.stream.nextChunkSeq) :
    ∃ chunk ∈ tables.input.stream.chunks, chunk.chunkSeq = row.nextChunkSeq ∧
      ((chunk.chunkKind = .frontier ∧ ordinal = 0) ∨
        (chunk.chunkKind = .data ∧ tables.state.queue = [] ∧ ordinal < chunk.rowCount) ∨
        (tables.state.queue ≠ [] ∧ Started spec tables row.nextChunkSeq ordinal chunk)) := by
  have good := stands.good
  obtain ⟨chunk, stored, atCursor⟩ := pending_stored good.input stands.found stands.first pending
  have produced := good.input.produced.stored.subset stored
  refine ⟨chunk, stored, atCursor, ?_⟩
  by_cases start : ordinal = 0
  · cases kind : chunk.chunkKind with
    | frontier => exact .inl ⟨rfl, start⟩
    | data =>
        have present := List.length_pos_iff.mpr ((good.stored chunk produced).present kind)
        rw [← (good.stored chunk produced).rows] at present
        exact .inr (.inl ⟨rfl, stands.standing.fresh start, start ▸ present⟩)
  · obtain ⟨other, otherProduced, isStarted⟩ := stands.standing.started start
    have same := List.inj_on_of_nodup_map (produced_keys good.input) produced otherProduced
      (atCursor.trans isStarted.atCursor.symm)
    subst same
    by_cases drained : tables.state.queue = []
    · exact .inr (.inl ⟨isStarted.kind, drained, isStarted.inside drained⟩)
    · exact .inr (.inr ⟨drained, isStarted⟩)

theorem step_keeps (budget : WorkBudget) (pending : row.nextChunkSeq < tables.input.stream.nextChunkSeq)
    (flowing : tables.output.stream.backpressured = false) (after : DistinctTables Row Key Out Bytes)
    (ok : stepDistinct spec tables key budget = .ok after) : ∃ next nextOrdinal, Stands spec key after next nextOrdinal := by
  obtain ⟨chunk, stored, atCursor, ⟨kind, rfl⟩ | ⟨kind, drained, inside⟩ | ⟨queued, started⟩⟩ :=
    cursor_chunk spec key tables row ordinal stands pending
  · have numbers := frontier_needs_number spec key tables budget row stands chunk stored atCursor kind flowing after ok
    rw [frontier_step spec key tables budget row stands chunk stored atCursor kind flowing numbers] at ok
    obtain rfl := Except.ok.inj ok
    exact forwarded_stands spec key tables row stands chunk stored atCursor kind
  · have fits := apply_fits spec key tables budget row ordinal stands chunk stored atCursor inside kind drained flowing after ok
    rw [apply_step spec key tables budget row ordinal stands chunk stored atCursor inside kind drained fits flowing] at ok
    obtain rfl := Except.ok.inj ok
    exact applied_stands spec key tables row ordinal stands chunk stored atCursor kind budget inside drained fits
  · have numbers := drain_needs_number budget stands stored started queued flowing after ok
    rw [drain_step budget stands stored started queued flowing numbers] at ok
    obtain rfl := Except.ok.inj ok
    exact drained_stands spec key tables row ordinal stands chunk stored atCursor started.kind budget started queued

-- A step the stage cannot take yet leaves everything as it was.
theorem step_waits (budget : WorkBudget) (after : DistinctTables Row Key Out Bytes)
    (waits : tables.output.stream.backpressured = true ∨ ¬ row.nextChunkSeq < tables.input.stream.nextChunkSeq)
    (ok : stepDistinct spec tables key budget = .ok after) : after = tables := by
  refine run_kernel_waits stands.found stands.good.operator waits (fun nothing => ?_) ok
  have start : ordinal = 0 := by
    by_contra begun
    obtain ⟨chunk, produced, started⟩ := stands.standing.started begun
    have below := produced_below tables.input stands.good.input.produced chunk produced
    rw [started.atCursor] at below
    exact nothing below
  rw [stands.good.checkpoint, stands.standing.continuation, stands.standing.fresh start, start]
  rfl

theorem call_keeps (call : TransformCall Row Out key) (feeds : Feeds spec key tables call)
    (after : DistinctTables Row Key Out Bytes) (ok : distinctStep spec key tables call = .ok after) :
    ∃ next nextOrdinal, Stands spec key after next nextOrdinal := by
  cases call with
  | source op other =>
      obtain ⟨input, moved, rfl⟩ := except_map_ok ok
      exact ⟨row, ordinal, source_keeps spec key tables row ordinal stands op other input feeds moved⟩
  | reader op reads =>
      obtain ⟨output, moved, rfl⟩ := except_map_ok ok
      exact ⟨row, ordinal, reader_keeps spec key tables row ordinal stands op reads output moved⟩
  | step budget =>
      by_cases goes : tables.output.stream.backpressured = false ∧ row.nextChunkSeq < tables.input.stream.nextChunkSeq
      · exact step_keeps spec key tables row ordinal stands budget goes.2 goes.1 after ok
      · have waits : tables.output.stream.backpressured = true ∨ ¬ row.nextChunkSeq < tables.input.stream.nextChunkSeq := by
          rw [not_and_or, Bool.not_eq_false] at goes
          exact goes
        obtain rfl := step_waits spec key tables row ordinal stands budget after waits ok
        exact ⟨row, ordinal, stands⟩

end Calls

-- The DISTINCT of some rows: for every key that is there the row with the least
-- canonical key, once, and nothing else.
structure IsDistinct (spec : DistinctSpec Row Key Out Bytes) (rows : List (EffectRow Row)) (emitted : List (Out × Int)) :
    Prop where
  single : ∀ key, 0 < keyTotal spec rows key →
    ∃! output, weight emitted output ≠ 0 ∧ Least spec rows key (spec.canonicalKey output)
  only : ∀ output, weight emitted output ≠ 0 → weight emitted output = 1 ∧
    ∃ key, 0 < keyTotal spec rows key ∧ Least spec rows key (spec.canonicalKey output)

-- The row of its chunk that a Distinct has reached, and the rows it has admitted.
def ordinalOf (tables : DistinctTables Row Key Out Bytes) : Nat :=
  (tables.continuation.map fun continuation => continuation.input.rowOrdinal).getD 0

def admittedUpTo (tables : DistinctTables Row Key Out Bytes) (row : StreamConsumer) : List (EffectRow Row) :=
  readRows tables.input row.nextChunkSeq (ordinalOf tables)

-- What holds of a Distinct wherever its run has taken it.
structure DistinctExact (spec : DistinctSpec Row Key Out Bytes) (key : ConsumerKey)
    (tables : DistinctTables Row Key Out Bytes) (row : StreamConsumer) : Prop where
  running : ∀ length output, weight (itemsOf ((outputRows tables.output).take length)) output = 0 ∨
    weight (itemsOf ((outputRows tables.output).take length)) output = 1
  exact : tables.state.queue = [] → IsDistinct spec (admittedUpTo tables row) (itemsOf (outputRows tables.output))
  admits : ∀ chunk ∈ tables.input.produced, chunk.chunkKind = .data → chunk.chunkSeq = row.nextChunkSeq →
    tables.state.queue = [] → tables.output.stream.backpressured = false → ∀ budget,
      (∃ after, stepDistinct spec tables key budget = .ok after) ↔
        Fits spec (admittedUpTo tables row) (pageOf spec budget chunk (ordinalOf tables))
  drains : tables.state.queue ≠ [] → tables.output.stream.backpressured = false →
    tables.output.stream.nextChunkSeq ≠ bigintMax → ∀ budget, ∃ after, stepDistinct spec tables key budget = .ok after ∧
      after.state.queue.length < tables.state.queue.length

section Exact

variable (spec : DistinctSpec Row Key Out Bytes) (key : ConsumerKey) (tables : DistinctTables Row Key Out Bytes)
  (row : StreamConsumer) (ordinal : Nat) (stands : Stands spec key tables row ordinal)

include stands

theorem ordinal_of : ordinalOf tables = ordinal := by
  rw [ordinalOf, stands.standing.continuation, standingCursor]
  split
  · rfl
  · split
    · rename_i start
      exact start.symm
    · rfl

-- What is shown is shown by one group, as its least row.
theorem shown_group (output : Out) (present : shownRows tables.state.groups output ≠ 0) :
    ∃ group ∈ tables.state.groups, group.outputRow = some output ∧ 0 < group.multiplicity ∧
      Least spec (readRows tables.input row.nextChunkSeq ordinal) group.key (spec.canonicalKey output) := by
  have admitted := stands.standing.admitted
  by_contra absent
  apply present
  apply sum_of_none
  intro group member
  apply if_neg
  intro isRow
  have shown := admitted.shown group member
  have isKey : group.outputKey = some (spec.canonicalKey output) := by
    rw [← shown.canonical, isRow]
    rfl
  exact absent ⟨group, member, isRow, admitted.positive group member, (shown.least _).mp isKey⟩

theorem group_shows (group : GroupRow Key Out Bytes) (member : group ∈ tables.state.groups) : ∃ output,
    group.outputRow = some output ∧ 0 < shownRows tables.state.groups output ∧
      Least spec (readRows tables.input row.nextChunkSeq ordinal) group.key (spec.canonicalKey output) := by
  have admitted := stands.standing.admitted
  have shown := admitted.shown group member
  have present := shown.present.mpr (admitted.positive group member)
  rw [← shown.canonical, Option.isSome_map] at present
  obtain ⟨output, isRow⟩ := Option.isSome_iff_exists.mp present
  have isKey : group.outputKey = some (spec.canonicalKey output) := by
    rw [← shown.canonical, isRow]
    rfl
  refine ⟨output, isRow, ?_, (shown.least _).mp isKey⟩
  have inside : shows group.outputRow output ∈ tables.state.groups.map fun group => shows group.outputRow output :=
    List.mem_map_of_mem member
  have one : shows group.outputRow output = 1 := if_pos isRow
  have natural : ∀ amount ∈ tables.state.groups.map fun group => shows group.outputRow output, 0 ≤ amount := by
    intro amount isAmount
    obtain ⟨other, _, rfl⟩ := List.mem_map.mp isAmount
    rcases shows_range other.outputRow output with none | some
    · exact Int.le_of_eq none.symm
    · omega
  have le := List.single_le_sum natural _ inside
  rw [shownRows]
  omega

theorem queue_exact (drained : tables.state.queue = []) :
    IsDistinct spec (readRows tables.input row.nextChunkSeq ordinal) (itemsOf (outputRows tables.output)) := by
  have admitted := stands.standing.admitted
  have natural : ∀ value, 0 ≤ weight (itemsOf (readRows tables.input row.nextChunkSeq ordinal)) value := by
    obtain ⟨rest, whole⟩ := read_rows_first tables.input row.nextChunkSeq ordinal
    have never := stands.good.never
    rw [whole] at never
    exact natural_before _ rest never
  have shown : ∀ output, weight (itemsOf (outputRows tables.output)) output = shownRows tables.state.groups output := by
    intro output
    have shown := stands.standing.shown output
    rwa [promised, drained, List.map_nil, List.append_nil] at shown
  have running : ∀ output, weight (itemsOf (outputRows tables.output)) output = 0 ∨
      weight (itemsOf (outputRows tables.output)) output = 1 := by
    intro output
    have running := stands.standing.running (promised tables).length output
    rwa [List.take_length, promised, drained, List.map_nil, List.append_nil] at running
  constructor
  · intro key positive
    obtain ⟨group, member, rfl⟩ := admitted.covers key positive
    obtain ⟨output, isRow, there, least⟩ := group_shows spec _ tables row ordinal stands group member
    refine ⟨output, ⟨by rw [shown]; exact Int.ne_of_gt there, least⟩, ?_⟩
    rintro other ⟨present, leastToo⟩
    rw [shown] at present
    obtain ⟨owner, isOwner, isOther, _, ownerLeast⟩ := shown_group spec _ tables row ordinal stands other present
    have sameKey := least_key spec ownerLeast leastToo
    have same := admitted.grouped.same_key _ owner group isOwner member sameKey
    rw [same, isRow] at isOther
    exact (Option.some.inj isOther).symm
  · intro output present
    refine ⟨(running output).resolve_left present, ?_⟩
    rw [shown] at present
    obtain ⟨owner, _, _, _, least⟩ := shown_group spec _ tables row ordinal stands output present
    exact ⟨owner.key, least_present spec natural least, least⟩

theorem stands_exact : DistinctExact spec key tables row := by
  have ordinalIs := ordinal_of spec key tables row ordinal stands
  refine ⟨?_, ?_, ?_, ?_⟩
  · intro length output
    have running := stands.standing.running (min length (outputRows tables.output).length) output
    have short : min length (outputRows tables.output).length ≤ (itemsOf (outputRows tables.output)).length := by
      rw [itemsOf, List.length_map]
      exact Nat.min_le_right _ _
    rw [promised, List.take_append_of_le_length short, items_take, ← List.take_take, List.take_length] at running
    exact running
  · intro drained
    rw [admittedUpTo, ordinalIs]
    exact queue_exact spec key tables row ordinal stands drained
  · intro chunk produced kind atCursor drained flowing budget
    have below := produced_below tables.input stands.good.input.produced chunk produced
    rw [atCursor] at below
    obtain ⟨other, stored, otherSeq, here⟩ := cursor_chunk spec key tables row ordinal stands below
    have same := List.inj_on_of_nodup_map (produced_keys stands.good.input)
      (stands.good.input.produced.stored.subset stored) produced (otherSeq.trans atCursor.symm)
    subst same
    rcases here with ⟨isFrontier, _⟩ | ⟨_, _, inside⟩ | ⟨queued, _⟩
    · rw [kind] at isFrontier
      cases isFrontier
    · rw [admittedUpTo, ordinalIs]
      constructor
      · rintro ⟨after, ok⟩
        exact apply_fits spec key tables budget row ordinal stands other stored atCursor inside kind drained flowing after ok
      · intro fits
        exact ⟨_, apply_step spec key tables budget row ordinal stands other stored atCursor inside kind drained fits flowing⟩
    · exact absurd drained queued
  · intro queued flowing numbers budget
    have begun : ordinal ≠ 0 := fun start => queued (stands.standing.fresh start)
    obtain ⟨chunk, produced, started⟩ := stands.standing.started begun
    obtain ⟨member, _⟩ := found_consumer tables.input key row stands.found
    have stored := (stands.good.input.consumers row member).retained chunk produced (Nat.le_of_eq started.atCursor.symm)
    obtain ⟨_, _, some, _⟩ := drain_taken budget stands queued
    refine ⟨_, drain_step budget stands stored started queued flowing numbers, ?_⟩
    change (tables.state.queue.drop (drainOf tables budget).length).length < _
    have long := List.length_pos_iff.mpr queued
    rw [List.length_drop]
    omega

end Exact

theorem run_stands {spec : DistinctSpec Row Key Out Bytes} {key : ConsumerKey}
    {start tables : DistinctTables Row Key Out Bytes} (registered : DistinctRegistered key start)
    (ran : Path (distinctStep spec key) (Feeds spec key) start tables) :
    ∃ row ordinal, Stands spec key tables row ordinal := by
  apply path_invariant (fun tables => ∃ row ordinal, Stands spec key tables row ordinal) _ start tables _ ran
  · rintro tables call after ⟨row, ordinal, stands⟩ feeds taken
    exact call_keeps spec key tables row ordinal stands call feeds after taken
  · obtain ⟨row, stands⟩ := registered_stands spec key start registered
    exact ⟨row, 0, stands⟩

-- A Distinct maintains the DISTINCT of what it has admitted, whatever its
-- budgets and chunks are, and admits every page whose multiplicities fit a bigint.
theorem distinct_maintains (spec : DistinctSpec Row Key Out Bytes) (key : ConsumerKey)
    (start tables : DistinctTables Row Key Out Bytes) (registered : DistinctRegistered key start)
    (ran : Path (distinctStep spec key) (Feeds spec key) start tables) :
    ∃ row, tables.input.stream.findConsumer key = some row ∧ DistinctExact spec key tables row := by
  obtain ⟨row, ordinal, stands⟩ := run_stands registered ran
  exact ⟨row, stands.found, stands_exact spec key tables row ordinal stands⟩

-- Rows in groups of ten.
def tens : DistinctSpec Nat Nat Nat Nat where
  keys := fun value => value / 10
  outputs := id
  canonicalKey := id
  inputLength := fun _ => 1
  outputLength := fun _ => 1
  keyed := by
    intro row other same
    exact congrArg (· / 10) same

def registeredDistinct : DistinctTables Nat Nat Nat Nat where
  input := registeredFilter.input
  output := registeredFilter.output
  hasContinuation := false
  continuation := none
  state := {}

theorem distinct_registered : DistinctRegistered scanConsumer registeredDistinct where
  input := filter_registered.input
  operator := rfl
  streamId := by decide
  output := filter_registered.output
  continuation := rfl
  checkpoint := rfl
  state := rfl

-- Two rows of one group arrive, and the first of them goes.
def shrinking : List (EffectRow Nat) := [⟨1, 12⟩, ⟨1, 11⟩, ⟨-1, 12⟩]

def fedDistinct : DistinctTables Nat Nat Nat Nat :=
  { registeredDistinct with input := attempts historyStep registeredDistinct.input [.append 1 .data 3 27 10 shrinking] }

theorem shrinking_natural : NeverNegative shrinking := by
  intro length value
  have cases : shrinking.take length = [] ∨ shrinking.take length = [⟨1, 12⟩] ∨
      shrinking.take length = [⟨1, 12⟩, ⟨1, 11⟩] ∨ shrinking.take length = shrinking := by
    match length with
    | 0 => exact .inl rfl
    | 1 => exact .inr (.inl rfl)
    | 2 => exact .inr (.inr (.inl rfl))
    | length + 3 => exact .inr (.inr (.inr (List.take_of_length_le (Nat.le_add_left 3 length))))
  rcases cases with same | same | same | same <;> rw [same] <;> by_cases first : (12 : Nat) = value <;>
    by_cases second : (11 : Nat) = value <;> simp [weight, total, itemsOf, shrinking, first, second]

theorem distinct_fed :
    Path (distinctStep tens scanConsumer) (Feeds tens scanConsumer) registeredDistinct fedDistinct := by
  apply Path.next registeredDistinct fedDistinct
    (.source (.append 1 .data 3 27 10 shrinking) trivial : TransformCall Nat Nat scanConsumer) .here
  · refine ⟨⟨rfl, rfl, fun _ => rfl⟩, ?_⟩
    intro input ok
    have same : input = fedDistinct.input := Except.ok.inj (ok.symm.trans (by decide))
    have rows : outputRows input = shrinking := by
      rw [same]
      decide
    rw [rows]
    exact shrinking_natural
  · decide

-- Two of its steps take two of the rows in and show the lesser.
theorem distinct_maintains_inside : ∃ tables row,
    Path (distinctStep tens scanConsumer) (Feeds tens scanConsumer) registeredDistinct tables ∧
      outputRows tables.output = [⟨1, 11⟩] ∧ DistinctExact tens scanConsumer tables row := by
  have steps : ((stepDistinct tens fedDistinct scanConsumer narrowBudget).bind fun after =>
      stepDistinct tens after scanConsumer narrowBudget).map (fun after => outputRows after.output) = .ok [⟨1, 11⟩] := by
    decide
  obtain ⟨drained, taken, rows⟩ := except_map_ok steps
  obtain ⟨admitted, first, second⟩ := bind_ok_iff.mp taken
  have once : Path (distinctStep tens scanConsumer) (Feeds tens scanConsumer) registeredDistinct admitted := by
    apply Path.next fedDistinct admitted (.step narrowBudget : TransformCall Nat Nat scanConsumer) distinct_fed _ first
    trivial
  have twice : Path (distinctStep tens scanConsumer) (Feeds tens scanConsumer) registeredDistinct drained := by
    apply Path.next admitted drained (.step narrowBudget : TransformCall Nat Nat scanConsumer) once _ second
    trivial
  obtain ⟨row, _, exact⟩ := distinct_maintains tens scanConsumer registeredDistinct drained distinct_registered twice
  exact ⟨drained, row, twice, rows, exact⟩

end Shiba.Distinct
