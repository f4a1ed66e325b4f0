import Shiba.Distinct.Exact

set_option autoImplicit false

namespace Shiba.Distinct

open Budget Handover Weighted Transition Shiba.Stream Shiba.Execution Shiba.Linear Shiba.Linear.Transform

-- Rows that are all alike.
def units : DistinctSpec Unit Unit Unit Unit where
  keys := id
  outputs := id
  canonicalKey := id
  inputLength := fun _ => 0
  outputLength := fun _ => 0
  keyed := fun _ _ same => same

@[irreducible] def wideRows : Nat := 576460752303423488

def wideLimits : StreamLimits := ⟨wideRows, 8 * wideRows, 8, 2 * wideRows, bigintMax, 4, wideRows, 8 * wideRows⟩

theorem wide_positive : 0 < wideRows := by decide +kernel

theorem wide_payload_positive : 0 < 8 * wideRows := Nat.mul_pos (Nat.succ_pos 7) wide_positive

theorem wide_calls_positive : 0 < 8 := Nat.succ_pos 7

theorem wide_output_positive : 0 < 64 := Nat.succ_pos 63

def wideBudget : WorkBudget :=
  ⟨wideRows, 8 * wideRows, 8, 64, wide_positive, wide_payload_positive, wide_calls_positive, wide_output_positive⟩

def unitRow : EffectRow Unit := ⟨1, ()⟩

def wideChunk (sequence : Nat) : EffectChunk Unit := ⟨sequence, .data, wideRows, 8 * wideRows, 10, List.replicate wideRows unitRow⟩

def registeredUnits : DistinctTables Unit Unit Unit Unit where
  input := attempts historyStep ⟨freshStream wideLimits 2 (.operator 900 0), none, []⟩ [.attach ⟨true, false⟩ scanConsumer 0]
  output := ⟨{ freshStream wideLimits 3 (.operator 900 1) with consumers := [⟨⟨900, 2, 0⟩, 1, 0, 0⟩] }, none, []⟩
  hasContinuation := false
  continuation := none
  state := {}

theorem units_registered : DistinctRegistered scanConsumer registeredUnits where
  input := ⟨_, ⟨true, false⟩, 0, .start _ ⟨wideLimits, 2, .operator 900 0, none, rfl⟩, rfl⟩
  operator := rfl
  streamId := by decide
  output := ⟨wideLimits, 3, 900, 1, [⟨⟨900, 2, 0⟩, 1, 0, 0⟩], by decide +kernel, by decide, rfl⟩
  continuation := rfl
  checkpoint := rfl
  state := rfl

-- The input once it has been read and collected up to a chunk: one row first,
-- then chunks of as many rows as fit the byte target.
def wideInput (count : Nat) : StreamHistory Unit where
  stream :=
    { wideLimits with
      streamId := 2
      producer := .operator 900 0
      nextChunkSeq := count + 2
      firstRetainedChunkSeq := count + 2
      latestDataLsn := some 10
      consumers := [⟨scanConsumer, count + 2, 0, 0⟩] }
  produced := ⟨1, .data, 1, 8, 10, [unitRow]⟩ :: (List.range' 2 count).map wideChunk

structure Filled (count : Nat) (tables : DistinctTables Unit Unit Unit Unit) : Prop where
  ran : Path (distinctStep units scanConsumer) (Feeds units scanConsumer) registeredUnits tables
  input : tables.input = wideInput count
  continuation : tables.continuation = none
  drained : tables.state.queue = []
  flowing : tables.output.stream.backpressured = false

theorem never_added {Row : Type} [DecidableEq Row] (rows : List (EffectRow Row)) (added : ∀ row ∈ rows, 0 ≤ row.weight) :
    NeverNegative rows := by
  intro length value
  unfold weight total
  apply List.sum_nonneg
  intro amount member
  obtain ⟨item, inside, rfl⟩ := List.mem_map.mp member
  obtain ⟨row, isRow, rfl⟩ := List.mem_map.mp inside
  have here := added row (List.mem_of_mem_take isRow)
  dsimp only
  split
  · exact here
  · exact Int.le_refl 0

theorem units_total (rows : List (EffectRow Unit)) (all : ∀ row ∈ rows, row = unitRow) (key : Unit) :
    keyTotal units rows key = rows.length := by
  have same : rows = List.replicate rows.length unitRow := List.eq_replicate_iff.mpr ⟨rfl, all⟩
  generalize rows.length = length at same
  subst same
  induction length with
  | zero => rfl
  | succ length ih =>
      have rest := ih fun row member => (List.mem_replicate.mp member).2
      rw [List.replicate_succ]
      have split : keyTotal units (unitRow :: List.replicate length unitRow) key =
          1 + keyTotal units (List.replicate length unitRow) key := rfl
      rw [split, rest]
      push_cast
      omega

theorem wide_rows (count : Nat) (row : EffectRow Unit) (inside : row ∈ outputRows (wideInput count)) : row = unitRow := by
  obtain ⟨chunk, produced, isRow⟩ := List.mem_flatMap.mp inside
  rcases List.mem_cons.mp produced with rfl | later
  · exact List.mem_singleton.mp isRow
  · obtain ⟨sequence, _, rfl⟩ := List.mem_map.mp later
    exact (List.mem_replicate.mp isRow).2

theorem wide_never (count : Nat) : NeverNegative (outputRows (wideInput count)) := by
  apply never_added
  intro row inside
  rw [wide_rows count row inside]
  decide

section

variable {tables after : DistinctTables Unit Unit Unit Unit}
  (ran : Path (distinctStep units scanConsumer) (Feeds units scanConsumer) registeredUnits tables)

include ran

theorem unit_steps (taken : stepDistinct units tables scanConsumer wideBudget = .ok after) :
    Path (distinctStep units scanConsumer) (Feeds units scanConsumer) registeredUnits after := by
  apply Path.next tables after (.step wideBudget : TransformCall Unit Unit scanConsumer) ran _ taken
  trivial

-- Collecting changes nothing but the input.
theorem collects {count : Nat}
    (collected : distinctStep units scanConsumer tables (.source (.collect 1 wideRows (8 * wideRows)) trivial) = .ok after)
    (input : after.input = wideInput count) :
    Path (distinctStep units scanConsumer) (Feeds units scanConsumer) registeredUnits after := by
  apply Path.next tables after (.source (.collect 1 wideRows (8 * wideRows)) trivial) ran _ collected
  refine ⟨trivial, ?_⟩
  intro other ok
  obtain ⟨made, isMade, rfl⟩ := except_map_ok collected
  obtain rfl := Except.ok.inj (isMade.symm.trans ok)
  have same : made = wideInput count := input
  rw [same]
  exact wide_never count

end

def unitsFed : DistinctTables Unit Unit Unit Unit :=
  { registeredUnits with input := attempts historyStep registeredUnits.input [.append 1 .data 1 8 10 [unitRow]] }

-- A run of steps that collects at the end.
def unitsRun (tables : DistinctTables Unit Unit Unit Unit) : Except Fault (DistinctTables Unit Unit Unit Unit) := do
  let tables ← stepDistinct units tables scanConsumer wideBudget
  let tables ← stepDistinct units tables scanConsumer wideBudget
  distinctStep units scanConsumer tables (.source (.collect 1 wideRows (8 * wideRows)) trivial)

theorem filled_first : ∃ tables, Filled 0 tables := by
  have fed : Path (distinctStep units scanConsumer) (Feeds units scanConsumer) registeredUnits unitsFed := by
    have ok : historyStep registeredUnits.input (.append 1 .data 1 8 10 [unitRow]) = .ok unitsFed.input := by decide +kernel
    refine .next _ _ (.source (.append 1 .data 1 8 10 [unitRow]) trivial) .here ⟨⟨rfl, rfl, fun _ => rfl⟩, ?_⟩
      (by decide +kernel)
    intro input same
    obtain rfl := Except.ok.inj (ok.symm.trans same)
    have rows : outputRows unitsFed.input = [unitRow] := by decide +kernel
    rw [rows]
    apply never_added
    intro row member
    obtain rfl := List.mem_singleton.mp member
    decide
  have ends : (unitsRun unitsFed).map (fun tables =>
      (tables.input, tables.continuation, tables.state.queue, tables.output.stream.backpressured)) =
        .ok (wideInput 0, none, [], false) := by decide +kernel
  obtain ⟨tables, ran, same⟩ := except_map_ok ends
  unfold unitsRun at ran
  obtain ⟨applied, first, ran⟩ := bind_ok_iff.mp ran
  obtain ⟨drained, second, collected⟩ := bind_ok_iff.mp ran
  obtain ⟨input, rest⟩ := Prod.mk.inj same
  obtain ⟨continuation, rest⟩ := Prod.mk.inj rest
  obtain ⟨queue, flowing⟩ := Prod.mk.inj rest
  have once := unit_steps fed first
  have twice := unit_steps once second
  exact ⟨tables, collects twice collected input, input, continuation, queue, flowing⟩

-- The next chunk of as many rows as fit.
def wideFed (tables : DistinctTables Unit Unit Unit Unit) : DistinctTables Unit Unit Unit Unit :=
  { tables with
    input := appendedHistory tables.input .data wideRows (8 * wideRows) 10 (List.replicate wideRows unitRow) }

theorem page_whole {Row Key Out Bytes : Type} [LinearOrder Key] [LinearOrder Bytes] [DecidableEq Row] [DecidableEq Out]
    (spec : DistinctSpec Row Key Out Bytes) (budget : WorkBudget) (chunk : EffectChunk Row)
    (rows : chunk.payload.length ≤ budget.maxInputRows)
    (bytes : spec.scanPlaceholder.sourceBytes chunk.payload ≤ budget.maxInputBytes) :
    pageOf spec budget chunk 0 = chunk.payload := by
  have taken : chunk.payload.take budget.maxInputRows = chunk.payload := List.take_of_length_le rows
  have whole := (within_budget_whole (readFit spec.scanPlaceholder budget) chunk.payload
    (read_fit_down spec.scanPlaceholder budget _)).mpr (.inr (decide_eq_true bytes))
  rw [pageOf, List.drop_zero, incomingRows, taken]
  exact whole

theorem wide_bytes : units.scanPlaceholder.sourceBytes (List.replicate wideRows unitRow) = 8 * wideRows := by
  rw [ScanSpec.sourceBytes, List.map_replicate, List.sum_replicate, smul_eq_mul, Nat.mul_comm]
  rfl

theorem wide_page (sequence : Nat) : pageOf units wideBudget (wideChunk sequence) 0 = List.replicate wideRows unitRow :=
  page_whole units wideBudget (wideChunk sequence) (Nat.le_of_eq List.length_replicate) (Nat.le_of_eq wide_bytes)

theorem wide_length (count : Nat) : (outputRows (wideInput count)).length = 1 + count * wideRows := by
  have each : ((List.range' 2 count).map wideChunk).map (fun chunk => chunk.payload.length) = List.replicate count wideRows := by
    apply List.eq_replicate_iff.mpr
    refine ⟨by simp, ?_⟩
    intro length member
    obtain ⟨chunk, isChunk, rfl⟩ := List.mem_map.mp member
    obtain ⟨sequence, _, rfl⟩ := List.mem_map.mp isChunk
    exact List.length_replicate
  rw [outputRows, List.length_flatMap, wideInput, List.map_cons, List.sum_cons, each, List.sum_replicate, smul_eq_mul]
  rfl

-- Once a row is shown, more of its kind change nothing.
theorem units_quiet (rows page : List (EffectRow Unit)) (before : ∀ row ∈ rows, row = unitRow)
    (incoming : ∀ row ∈ page, row = unitRow) (some : 0 < rows.length) (state : DistinctState Unit Unit Unit)
    (admitted : Admitted units rows state) (lsn : Lsn) : pageEffects units lsn (admittedState units page state) = [] := by
  have both : ∀ row ∈ rows ++ page, row = unitRow := by
    intro row member
    rcases List.mem_append.mp member with first | second
    · exact before row first
    · exact incoming row second
  have never : NeverNegative (rows ++ page) := by
    apply never_added
    intro row member
    rw [both row member]
    decide
  have pending := pending_state units rows page never state admitted
  have resolves : Resolves state (resolvedState units page state) _ := resolve_groups (collapsedKeys units page) state
  have present : 0 < keyTotal units rows () := by
    rw [units_total rows before]
    exact Int.natCast_pos.mpr some
  have presentAfter : ∀ key, 0 < keyTotal units (rows ++ page) key := by
    intro key
    rw [units_total _ both, List.length_append]
    omega
  obtain ⟨owner, isOwner, _⟩ := admitted.covers () present
  obtain ⟨isLegs, _⟩ := effects_legs units rows page lsn never _ pending
  apply List.map_eq_nil_iff.mp
  rw [isLegs, List.flatMap_eq_nil_iff]
  intro slot member
  obtain ⟨group, isGroup, rfl⟩ := List.mem_map.mp member
  have old : group ∈ state.groups := by
    rcases resolves.fresh group isGroup with old | ⟨_, absent, _⟩
    · exact old
    · exact absurd rfl (absent owner isOwner)
  have shown := admitted.shown group old
  have isSome := shown.present.mpr (admitted.positive group old)
  rw [← shown.canonical, Option.isSome_map] at isSome
  obtain ⟨output, isRow⟩ := Option.isSome_iff_exists.mp isSome
  have representing := (representative_present units (rows ++ page) _ _ pending.grouped _ pending.bagged group isGroup
    (natural_after rows page never)).mpr (presentAfter group.key)
  obtain ⟨bagRow, isBag⟩ := Option.isSome_iff_exists.mp representing
  apply if_pos
  rw [slotOf, isRow, isBag]
  rfl

-- The input once its next chunk has been read.
def wideRead (count : Nat) : StreamHistory Unit :=
  movedInput (appendedHistory (wideInput count) .data wideRows (8 * wideRows) 10 (List.replicate wideRows unitRow))
    scanConsumer ⟨scanConsumer, count + 2, 0, 0⟩ (count + 3) 0 ⟨wideRows, 8 * wideRows, 0, 0⟩

theorem wide_garbage (count : Nat) :
    garbageChunks (wideRead count).stream (count + 3) 1 wideRows (8 * wideRows) = [wideChunk (count + 2)] := by
  have stored : (wideRead count).stream.chunks = [wideChunk (count + 2)] := by
    simp [wideRead, movedInput, appendedHistory, storeChunk, wideInput, wideChunk]
  have behind : [wideChunk (count + 2)].filter (fun chunk => decide (chunk.chunkSeq < count + 3)) = [wideChunk (count + 2)] := by
    simp [wideChunk]
  rw [garbageChunks, stored, behind, List.take_of_length_le (Nat.le_refl 1)]
  rfl

theorem wide_collected (count : Nat) : historyStep (wideRead count) (.collect 1 wideRows (8 * wideRows)) =
    .ok (wideInput (count + 1)) := by
  have slowest : slowestNext (wideRead count).stream = some (count + 3) := rfl
  have collected : gcEffectStream (wideRead count).stream 1 wideRows (8 * wideRows) =
      .ok (removeChunks (wideRead count).stream [wideChunk (count + 2)]) := by
    rw [gcEffectStream, if_neg (Nat.lt_irrefl 1), slowest]
    simp only [wide_garbage]
  have removed : removeChunks (wideRead count).stream [wideChunk (count + 2)] = (wideInput (count + 1)).stream := by
    simp [removeChunks, wideRead, movedInput, appendedHistory, storeChunk, wideInput, wideChunk, moveConsumer,
      StepContext.moveOf, greatestLsn]
  have produced : (wideRead count).produced = (wideInput (count + 1)).produced := by
    simp [wideRead, movedInput, appendedHistory, newChunk, wideInput, List.range'_concat, Nat.add_comm, wideChunk]
  rw [historyStep, collected, removed]
  exact congrArg (fun produced => Except.ok (ε := Fault) { wideInput (count + 1) with produced }) produced

section Feeding

variable (count : Nat) (tables : DistinctTables Unit Unit Unit Unit) (filled : Filled count tables)
  (few : count + 2 < bigintMax)

include filled few

omit few in
theorem wide_produced : (wideFed tables).input.produced = (wideInput (count + 1)).produced := by
  have wide : (wideInput (count + 1)).produced = (wideInput count).produced ++ [wideChunk (count + 2)] := by
    simp [wideInput, List.range'_concat, Nat.add_comm]
  rw [wide, wideFed, filled.input]
  rfl

theorem wide_fed : Path (distinctStep units scanConsumer) (Feeds units scanConsumer) registeredUnits (wideFed tables) := by
  have resources : resourcesFit (wideInput count).stream.toStreamLimits .data wideRows (8 * wideRows) = true := by
    change resourcesFit wideLimits .data wideRows (8 * wideRows) = true
    decide +kernel
  have ok : historyStep tables.input (.append (count + 2) .data wideRows (8 * wideRows) 10 (List.replicate wideRows unitRow)) =
      .ok (wideFed tables).input := by
    have appended := append_ok (wideInput count) ⟨rfl, by simp [wideInput], Nat.le_add_left 1 (count + 1), rfl⟩ .data wideRows
      (8 * wideRows) 10 (List.replicate wideRows unitRow) (Nat.ne_of_lt few) resources rfl
    rw [wideFed, filled.input]
    change (appendHistory (wideInput count) (wideInput count).stream.nextChunkSeq .data wideRows (8 * wideRows) 10
      (List.replicate wideRows unitRow)).map Prod.fst = _
    rw [appended]
    rfl
  apply Path.next tables (wideFed tables) (.source (.append (count + 2) .data wideRows (8 * wideRows) 10
    (List.replicate wideRows unitRow)) trivial) filled.ran
  · refine ⟨⟨(List.length_replicate).symm, wide_bytes.symm, ?_⟩, ?_⟩
    · intro _
      rw [filled.input]
      rfl
    · intro input same
      obtain rfl := Except.ok.inj (ok.symm.trans same)
      rw [outputRows, wide_produced count tables filled]
      exact wide_never (count + 1)
  · change (historyStep tables.input _).map _ = _
    rw [ok]
    rfl

theorem wide_stands : ∃ row, Stands units scanConsumer (wideFed tables) row 0 ∧ row.nextChunkSeq = count + 2 ∧
    row.consumedFrontierLsn = 0 := by
  obtain ⟨row, ordinal, stands⟩ := run_stands units_registered (wide_fed count tables filled few)
  have found := stands.found
  have isRow : (wideFed tables).input.stream.findConsumer scanConsumer = some ⟨scanConsumer, count + 2, 0, 0⟩ := by
    rw [wideFed, filled.input]
    rfl
  obtain rfl := Option.some.inj (isRow.symm.trans found)
  have start : ordinal = 0 := by
    rw [← ordinal_of units scanConsumer (wideFed tables) _ ordinal stands, ordinalOf]
    have none : (wideFed tables).continuation = none := filled.continuation
    rw [none]
    rfl
  subst start
  exact ⟨_, stands, rfl, rfl⟩

omit few in
theorem wide_stored : wideChunk (count + 2) ∈ (wideFed tables).input.stream.chunks := by
  rw [wideFed, filled.input]
  exact List.mem_singleton.mpr rfl

omit few in
theorem wide_read : readRows (wideFed tables).input (count + 2) 0 = outputRows (wideInput count) := by
  have length : (wideInput count).produced.length = count + 1 := by simp [wideInput]
  have same : (wideFed tables).input.produced = (wideInput count).produced ++ [wideChunk (count + 2)] := by
    rw [wideFed, filled.input]
    rfl
  have before : count + 2 - 1 = count + 1 := rfl
  rw [readRows, same, List.take_zero, List.append_nil, before, List.take_append_of_le_length (by omega),
    List.take_of_length_le (by omega)]
  rfl

omit few in
-- Whether the chunk is admitted is a matter of how many rows there are.
theorem wide_fits : Fits units (readRows (wideFed tables).input (count + 2) 0)
    (pageOf units wideBudget (wideChunk (count + 2)) 0) ↔ 1 + (count + 1) * wideRows ≤ bigintMax := by
  have total : ∀ length key, keyTotal units (outputRows (wideInput count) ++
      (List.replicate wideRows unitRow).take length) key = 1 + count * wideRows + min length wideRows := by
    intro length key
    rw [units_total]
    · rw [List.length_append, wide_length, List.length_take, List.length_replicate]
      push_cast
      rfl
    · intro row member
      rcases List.mem_append.mp member with before | page
      · exact wide_rows count row before
      · exact (List.mem_replicate.mp (List.mem_of_mem_take page)).2
  rw [wide_read count tables filled, wide_page, Fits]
  simp only [total]
  constructor
  · intro all
    have whole := all wideRows ()
    rw [Nat.min_self] at whole
    rw [Nat.add_mul, Nat.one_mul]
    omega
  · intro small length _
    have below := Nat.min_le_right length wideRows
    rw [Nat.add_mul, Nat.one_mul] at small
    omega

omit few in
theorem wide_quiet (row : StreamConsumer) (stands : Stands units scanConsumer (wideFed tables) row 0)
    (atCursor : row.nextChunkSeq = count + 2) :
    (appliedState units (wideFed tables) wideBudget (wideChunk (count + 2)) 0).queue = [] := by
  have admitted := stands.standing.admitted
  rw [atCursor, wide_read count tables filled] at admitted
  have some : 0 < (outputRows (wideInput count)).length := by
    rw [wide_length]
    omega
  have quiet := units_quiet (outputRows (wideInput count)) (List.replicate wideRows unitRow) (wide_rows count)
    (fun row member => (List.mem_replicate.mp member).2) some (wideFed tables).state admitted
    (wideChunk (count + 2)).chunkLsn
  have sameQueue := (admitted_touched units _ (List.replicate wideRows unitRow) (wideFed tables).state admitted).2
  have drained : (wideFed tables).state.queue = [] := filled.drained
  rw [appliedState, wide_page, reconciledState, sameQueue, drained, List.nil_append]
  exact quiet

theorem wide_applied (fits : 1 + (count + 1) * wideRows ≤ bigintMax) : ∃ after, Filled (count + 1) after := by
  obtain ⟨row, stands, atCursor, level⟩ := wide_stands count tables filled few
  have stored := wide_stored count tables filled
  have quiet := wide_quiet count tables filled row stands atCursor
  have inside : 0 < (wideChunk (count + 2)).rowCount := wide_positive
  have fitting := (wide_fits count tables filled).mpr fits
  rw [← atCursor] at fitting
  have applied := apply_step units scanConsumer (wideFed tables) wideBudget row 0 stands (wideChunk (count + 2)) stored
    atCursor.symm inside rfl filled.drained (atCursor ▸ fitting) filled.flowing
  have whole : ¬ 0 + (pageOf units wideBudget (wideChunk (count + 2)) 0).length < (wideChunk (count + 2)).rowCount := by
    rw [wide_page, List.length_replicate, Nat.zero_add]
    exact Nat.lt_irrefl wideRows
  have nothing : ¬ 0 < (appliedState units (wideFed tables) wideBudget (wideChunk (count + 2)) 0).queue.length := by
    rw [quiet]
    exact Nat.lt_irrefl 0
  rw [onwardInput, if_neg nothing, finishedInput, if_neg whole, onwardCursor, if_neg nothing, finishedCursor, if_neg whole]
    at applied
  have moved : (movedInput (wideFed tables).input scanConsumer row (row.nextChunkSeq + 1) row.consumedFrontierLsn
      ⟨(wideChunk (count + 2)).rowCount, (wideChunk (count + 2)).payloadBytes, 0, 0⟩) = wideRead count := by
    rw [wideFed, filled.input, atCursor, level]
    rfl
  rw [moved] at applied
  have ran := unit_steps (wide_fed count tables filled few) applied
  refine ⟨{ turnedTables (wideFed tables) (appliedState units (wideFed tables) wideBudget (wideChunk (count + 2)) 0) []
    (wideChunk (count + 2)).chunkLsn (wideRead count) none with input := wideInput (count + 1) },
    collects ran ?_ rfl, rfl, rfl, quiet, filled.flowing⟩
  unfold distinctStep
  change (historyStep (wideRead count) (.collect 1 wideRows (8 * wideRows))).map _ = _
  rw [wide_collected]
  rfl

end Feeding

theorem filled_to (count : Nat) (fits : 1 + count * wideRows ≤ bigintMax) : ∃ tables, Filled count tables := by
  induction count with
  | zero => exact filled_first
  | succ count ih =>
      have more : count * wideRows ≤ (count + 1) * wideRows := Nat.mul_le_mul_right wideRows (Nat.le_succ count)
      obtain ⟨tables, filled⟩ := ih (by omega)
      have wide : 8 ≤ wideRows := by decide +kernel
      have small : (count + 1) * 8 ≤ (count + 1) * wideRows := Nat.mul_le_mul_left (count + 1) wide
      have few : count + 2 < bigintMax := by
        have large : 100 ≤ bigintMax := by decide +kernel
        omega
      exact wide_applied count tables filled few fits

-- Sixteen chunks of 2 ^ 59 rows after one row: every row was inserted, nothing
-- is left to drain, and no budget gets past the multiplicity of their key.
theorem overflow_rejects : ∃ tables : DistinctTables Unit Unit Unit Unit,
    DistinctRegistered scanConsumer registeredUnits ∧
    Path (distinctStep units scanConsumer) (Feeds units scanConsumer) registeredUnits tables ∧
    (∀ row ∈ outputRows tables.input, row.weight = 1) ∧ tables.state.queue = [] ∧
    tables.output.stream.backpressured = false ∧ wideChunk 17 ∈ tables.input.stream.chunks ∧
    tables.input.stream.findConsumer scanConsumer = some ⟨scanConsumer, 17, 0, 0⟩ ∧
    ¬ ∃ after, stepDistinct units tables scanConsumer wideBudget = .ok after := by
  obtain ⟨tables, filled⟩ := filled_to 15 (by decide +kernel)
  have few : 15 + 2 < bigintMax := by decide +kernel
  have stored := wide_stored 15 tables filled
  obtain ⟨row, stands, atCursor, _⟩ := wide_stands 15 tables filled few
  refine ⟨wideFed tables, units_registered, wide_fed 15 tables filled few, ?_, filled.drained, filled.flowing, stored, ?_, ?_⟩
  · intro row member
    rw [outputRows, wide_produced 15 tables filled] at member
    rw [wide_rows 16 row member]
    rfl
  · rw [wideFed, filled.input]
    rfl
  · intro taken
    obtain ⟨after, ok⟩ := taken
    have inside : 0 < (wideChunk 17).rowCount := by
      change 0 < wideRows
      decide +kernel
    have fits := apply_fits units scanConsumer (wideFed tables) wideBudget row 0 stands (wideChunk 17) stored atCursor.symm
      inside rfl filled.drained filled.flowing after ok
    rw [atCursor] at fits
    have small := (wide_fits 15 tables filled).mp fits
    exact absurd small (by decide +kernel)

end Shiba.Distinct
