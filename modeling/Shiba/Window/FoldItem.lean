import Shiba.Window.FoldPage

set_option autoImplicit false

namespace Shiba.Window

open Shiba.Execution Spans Portions

variable {Row Value : Type} (function : FoldFunction Row Value) (partition : FoldPartition Row)

-- The frame rows of an output, its value, and the values of the first outputs.
def outputRows (output : Nat) : List (FoldRow Row) := ((frameAt partition output).map (frameRows partition)).getD []

def outputValue (output : Nat) : Option Value :=
  function.finalFunction (((outputRows partition output).map FoldRow.value).foldl function.advance function.start).1

def outputs (count : Nat) : List (Int × Option Value) :=
  (List.range count).map fun index => (((index + 1 : Nat) : Int), outputValue function partition (index + 1))

-- A fold between two rounds: so many rows of an output are folded.
structure Folding (output read : Nat) (ready : Bool) (cursor : WindowFoldCursor) (tables : FoldTables Value) : Prop where
  low : 1 ≤ output
  high : output ≤ partition.rows.length
  inside : read ≤ (outputRows partition output).length
  cursor : cursor = ⟨output, lastKey FoldRow.ordinal (outputRows partition output) read, ready⟩
  whole : ready = true → read = (outputRows partition output).length
  rest : ready = false → read = 0 ∨ read < (outputRows partition output).length
  values : tables.values = outputs function partition (output - 1)
  accumulator : tables.accumulator =
    if read = 0 ∧ ready = false then none else some (accumulatorAt function output (outputRows partition output) read)

variable {ready : Bool} (output : Nat)

section

variable (low : 1 ≤ output) (high : output ≤ partition.rows.length)

include low high

theorem output_frame :
    ∃ frame, frameAt partition output = some frame ∧ Ordered frame.spans ∧ outputRows partition output = frameRows partition frame := by
  have inside : output - 1 < partition.frames.length := by
    rw [partition.framed]
    omega
  have index : ((output : Int) - 1).toNat = output - 1 := by omega
  have isFrame : frameAt partition output = some partition.frames[output - 1] := by
    rw [frameAt, if_neg (by omega), index, List.getElem?_eq_getElem inside]
  refine ⟨_, isFrame, partition.ordered _ (List.getElem_mem inside), ?_⟩
  rw [outputRows, isFrame]
  rfl

theorem output_rising :
    (outputRows partition output).Pairwise fun a b => a.ordinal < b.ordinal := by
  obtain ⟨frame, _, _, rows⟩ := output_frame partition output low high
  rw [rows]
  exact frame_rising partition frame

theorem output_present :
    (partition.rows.any fun row => decide (row.ordinal = (output : Int))) = true := by
  have member : (output : Int) ∈ partition.rows.map FoldRow.ordinal := by
    rw [partition.ordinals, List.mem_map]
    refine ⟨output - 1, ?_, by omega⟩
    rw [List.mem_range]
    omega
  obtain ⟨row, inRows, isOutput⟩ := List.mem_map.mp member
  exact List.any_eq_true.mpr ⟨row, inRows, decide_eq_true isOutput⟩

end

theorem outputs_next (low : 1 ≤ output) :
    outputs function partition (output - 1) ++ [((output : Int), outputValue function partition output)] =
      outputs function partition output := by
  obtain ⟨before, rfl⟩ := Nat.exists_eq_succ_of_ne_zero (Nat.ne_of_gt low)
  rw [Nat.succ_sub_one, outputs, outputs, List.range_succ, List.map_append]
  rfl

-- Finalizing takes the accumulator away, where its bytes fit or it is alone.
theorem finalize_fold (low : 1 ≤ output) (high : output ≤ partition.rows.length) (tables : FoldTables Value)
    (held : tables.accumulator = some (accumulatorAt function output (outputRows partition output) (outputRows partition output).length))
    (remainingRows remainingBytes : Nat) (allow : Bool) (positive : 0 < remainingRows)
    (rowBudget : remainingRows ≤ bigintMax) (byteBudget : remainingBytes ≤ bigintMax) :
    ∃ finalized after, windowFinalizeFold function partition tables output remainingRows remainingBytes allow = .ok (finalized, after) ∧
      finalized.applied = (decide (finalized.workBytes ≤ remainingBytes) || allow) ∧
      after = if finalized.applied then ⟨none, tables.values ++ [((output : Int), outputValue function partition output)]⟩ else tables := by
  have value : function.finalFunction (accumulatorAt function output (outputRows partition output)
      (outputRows partition output).length).stateValue = outputValue function partition output := by
    rw [outputValue, accumulatorAt, foldedState, List.take_length]
  have isHeld := accumulator_held tables _ held
  change accumulatorOf tables (output : Int) = _ at isHeld
  refine ⟨⟨decide (function.workBytes output (outputValue function partition output) ≤ remainingBytes) || allow,
    function.workBytes output (outputValue function partition output),
    if decide (function.workBytes output (outputValue function partition output) ≤ remainingBytes) || allow then
      (if function.isLastFunction then 3 else 2) else 0⟩, _, ?_, rfl, rfl⟩
  have work := function.positive output (outputValue function partition output)
  rw [windowFinalizeFold, windowI64Budget, refuse_ok.mpr (decide_eq_false (by omega)), ok_bind, windowI64Budget,
    refuse_ok.mpr (decide_eq_false (by omega)), ok_bind, isHeld]
  simp only [value, output_present partition output low high, Bool.not_true, Bool.and_false]
  rw [refuse_ok.mpr rfl, ok_bind, decide_eq_true (show 1 ≤ remainingRows by omega), Bool.true_and]
  generalize function.workBytes output (outputValue function partition output) = workBytes at work ⊢
  have decision : validateWindowFinalizeDecision (decide (workBytes ≤ remainingBytes) || allow) workBytes remainingRows remainingBytes
      allow = .ok () := by
    rw [validateWindowFinalizeDecision]
    cases isPermitted : decide (workBytes ≤ remainingBytes) || allow with
    | true =>
        rw [if_pos rfl, refuse_ok.mpr (decide_eq_false (by omega)), ok_bind, refuse_ok]
        rw [Bool.or_eq_true, decide_eq_true_eq] at isPermitted
        rcases isPermitted with fits | allowed
        · rw [decide_eq_false (by omega), Bool.false_and]
        · rw [allowed, Bool.not_true, Bool.and_false]
    | false =>
        rw [if_neg Bool.false_ne_true, refuse_ok, Bool.and_false]
  rw [decision]
  generalize (decide (workBytes ≤ remainingBytes) || allow) = permitted
  have mutations : (if permitted = true then ((if True then 1 else 0) + if function.isLastFunction = true then 1 else 0) + 1 else 0) =
      if permitted = true then (if function.isLastFunction = true then 3 else 2) else 0 := by
    cases permitted with
    | true => cases function.isLastFunction <;> rfl
    | false => rfl
  rw [mutations, refuse_ok.mpr (decide_eq_false (fun differ => differ rfl)), ok_bind,
    refuse_ok.mpr (decide_eq_false (by omega)), ok_bind]
  rfl

-- What a page of a frame leaves: the frame is done, or the call ends in its
-- middle, or before its first row, which a later call has room for.
structure Framing (budget : WorkBudget) (output read : Nat) (ready : Bool) (current : WindowFoldCursor) (loop after : FoldLoop Value)
    (goes : Bool) : Prop where
  workItems : after.workItems = loop.workItems
  rows : loop.processedRows ≤ after.processedRows
  within : Whole after.processedRows after.processedBytes budget.maxInputRows budget.maxInputBytes
  values : after.tables.values = loop.tables.values
  kept : ready = true → after.processedRows = loop.processedRows ∧ after.processedBytes = loop.processedBytes
  ends : (goes = true ∧
      after.nextCursor = some ⟨output, lastKey FoldRow.ordinal (outputRows partition output) (outputRows partition output).length, true⟩ ∧
      after.tables.accumulator =
        some (accumulatorAt function output (outputRows partition output) (outputRows partition output).length)) ∨
    (goes = false ∧ ready = false ∧ ∃ more, read < more ∧ more < (outputRows partition output).length ∧ 0 < after.processedRows ∧
      after.nextCursor = some ⟨output, lastKey FoldRow.ordinal (outputRows partition output) more, false⟩ ∧
      after.tables.accumulator = some (accumulatorAt function output (outputRows partition output) more)) ∨
    (goes = false ∧ ready = false ∧ read = 0 ∧ 0 < loop.processedRows ∧ after.nextCursor = some current ∧
      after.tables.accumulator = none)

theorem fold_frame (budget : WorkBudget) (settings : Settings budget) (output read : Nat) (ready : Bool) (low : 1 ≤ output)
    (high : output ≤ partition.rows.length) (inside : read ≤ (outputRows partition output).length)
    (whole : ready = true → read = (outputRows partition output).length) (current : WindowFoldCursor)
    (isCurrent : current = ⟨output, lastKey FoldRow.ordinal (outputRows partition output) read, ready⟩) (loop : FoldLoop Value)
    (rest : ready = false → read = 0 ∨ read < (outputRows partition output).length)
    (held : loop.tables.accumulator = some (accumulatorAt function output (outputRows partition output) read))
    (next : loop.nextCursor = some current) (rowsOpen : loop.processedRows < budget.maxInputRows)
    (bytesOpen : loop.processedBytes < budget.maxInputBytes) (first : loop.processedRows = 0 ∨ (read = 0 ∧ ready = false)) :
    ∃ after goes, foldFrame function partition budget current (decide (read = 0) && !ready) loop = .ok (after, goes) ∧
      Framing function partition budget output read ready current loop after goes := by
  subst isCurrent
  cases ready with
  | true =>
      obtain rfl := whole rfl
      refine ⟨loop, true, ?_, rfl, Nat.le_refl _, ⟨Nat.le_of_lt rowsOpen, .inl (Nat.le_of_lt bytesOpen)⟩, rfl,
        fun _ => ⟨rfl, rfl⟩, .inl ⟨rfl, next, held⟩⟩
      rw [foldFrame, if_pos rfl]
      rfl
  | false =>
      obtain ⟨frame, isFrame, ordered, isRows⟩ := output_frame partition output low high
      obtain ⟨count, ran, bound, rows, bytes, filled⟩ := fold_page function partition loop.tables output frame read
        (budget.maxInputRows - loop.processedRows) (budget.maxInputBytes - loop.processedBytes) (decide (loop.processedRows = 0))
        isFrame ordered (isRows ▸ inside) (isRows ▸ held) (Nat.lt_of_le_of_lt (Nat.sub_le _ _) settings.1)
        (Nat.le_trans (Nat.sub_le _ _) settings.2) (Nat.sub_pos_of_lt rowsOpen)
      rw [← isRows] at ran bound bytes filled
      rw [decide_eq_true_eq] at bytes filled
      generalize isTaken : foldBytes (((outputRows partition output).drop read).take count) = taken at ran bytes
      have spent : (decide (budget.maxInputRows - loop.processedRows < count) ||
          (decide (budget.maxInputBytes - loop.processedBytes < taken) &&
            !(decide (loop.processedRows = 0) && decide (count = 1)))) = false := by
        rw [decide_eq_false (by omega), Bool.false_or]
        rcases bytes with fits | ⟨allowed, single⟩
        · rw [decide_eq_false (by omega), Bool.false_and]
        · rw [decide_eq_true allowed, decide_eq_true single, Bool.and_self, Bool.not_true, Bool.and_false]
      have within : Whole (loop.processedRows + count) (loop.processedBytes + taken) budget.maxInputRows budget.maxInputBytes := by
        refine ⟨by omega, ?_⟩
        rcases bytes with fits | ⟨allowed, single⟩
        · left
          omega
        · right
          omega
      rw [foldFrame, if_neg Bool.false_ne_true]
      simp only
      rw [ran, ok_bind]
      simp only
      rw [spent, refuse_ok.mpr rfl, ok_bind]
      by_cases done : read + count = (outputRows partition output).length
      · rw [decide_eq_true done, if_pos rfl]
        refine ⟨_, true, rfl, rfl, Nat.le_add_right _ _, within, rfl, fun wrong => (by cases wrong), .inl ⟨rfl, ?_, ?_⟩⟩
        · simp only
          congr 2
          by_cases nothing : count = 0
          · rw [if_pos nothing, ← done, nothing]
            rfl
          · rw [if_neg nothing, done]
            have present : (lastKey FoldRow.ordinal (outputRows partition output) (outputRows partition output).length).isNone = false := by
              rw [last_key_none _ _ (Nat.le_refl _), decide_eq_false_iff_not]
              omega
            obtain ⟨last, isLast⟩ := Option.isSome_iff_exists.mp (Option.isNone_eq_false_iff.mp present)
            rw [isLast]
            rfl
        · simp only
          rw [done]
      · rw [decide_eq_false done, if_neg Bool.false_ne_true]
        by_cases nothing : count = 0
        · have used : loop.processedRows ≠ 0 := by
            intro unused
            have some := filled (by omega) unused
            omega
          obtain ⟨start, _⟩ := first.resolve_left used
          have fresh : lastKey FoldRow.ordinal (outputRows partition output) read = none := by rw [start, lastKey, if_pos rfl]
          have present := accumulator_held { loop.tables with accumulator := _ } _
            (rfl : _ = some (accumulatorAt function output (outputRows partition output) (read + count)))
          change accumulatorOf _ (output : Int) = _ at present
          rw [if_pos nothing, present, fresh, decide_eq_true start]
          refine ⟨_, false, rfl, rfl, Nat.le_add_right _ _, within, rfl, fun wrong => (by cases wrong),
            .inr (.inr ⟨rfl, rfl, start, Nat.pos_of_ne_zero used, ?_, rfl⟩)⟩
          rfl
        · rw [if_neg nothing]
          refine ⟨_, false, rfl, rfl, Nat.le_add_right _ _, within, rfl, fun wrong => (by cases wrong),
            .inr (.inl ⟨rfl, rfl, read + count, ?_, ?_, ?_, ?_, rfl⟩)⟩
          · omega
          · omega
          · change 0 < loop.processedRows + count
            omega
          · simp only
            rw [if_neg nothing]

theorem open_accumulator {output read : Nat} {cursor : WindowFoldCursor} {tables : FoldTables Value}
    (folding : Folding function partition output read ready cursor tables) :
    openAccumulator function tables cursor = .ok (decide (read = 0) && !ready,
      { tables with accumulator := some (accumulatorAt function output (outputRows partition output) read) }) := by
  have fresh : (cursor.lastFrameOrdinal.isNone && !cursor.readyToFinalize) = (decide (read = 0) && !ready) := by
    rw [folding.cursor]
    exact congrArg (· && !ready) (last_key_none _ read folding.inside)
  rw [openAccumulator, fresh]
  by_cases start : read = 0 ∧ ready = false
  · obtain ⟨rfl, rfl⟩ := start
    have absent := folding.accumulator
    rw [if_pos ⟨rfl, rfl⟩] at absent
    rw [decide_eq_true rfl, Bool.not_false, Bool.and_self, if_pos rfl, absent, Option.isSome_none, refuse_ok.mpr rfl, ok_bind,
      folding.cursor]
    rfl
  · have held := folding.accumulator
    rw [if_neg start] at held
    have resumed : (decide (read = 0) && !ready) = false := by
      rw [Bool.and_eq_false_iff, decide_eq_false_iff_not, Bool.not_eq_false']
      by_cases first : read = 0
      · exact .inr (Bool.eq_true_of_not_eq_false fun wrong => start ⟨first, wrong⟩)
      · exact .inl first
    have present := accumulator_held tables _ held
    change accumulatorOf tables (output : Int) = _ at present
    have same : { tables with accumulator := some (accumulatorAt function output (outputRows partition output) read) } = tables := by
      rw [← held]
    rw [resumed, if_neg Bool.false_ne_true, folding.cursor, same]
    simp only
    rw [present, Option.isNone_some, refuse_ok.mpr rfl, ok_bind]
    rfl

-- What a round leaves: the output is final and the next one is up, or it was
-- the last one, or the call ends with less left of the output.
structure Rounding (budget : WorkBudget) (output read : Nat) (ready : Bool) (loop after : FoldLoop Value) (goes : Bool) : Prop where
  workItems : after.workItems = loop.workItems + 1
  rows : loop.processedRows ≤ after.processedRows
  within : Whole after.processedRows after.processedBytes budget.maxInputRows budget.maxInputBytes
  ends : (goes = true ∧ 0 < after.processedRows ∧ ∃ cursor, after.nextCursor = some cursor ∧
      Folding function partition (output + 1) 0 false cursor after.tables) ∨
    (goes = false ∧ after.nextCursor = none ∧ after.tables = ⟨none, outputs function partition partition.rows.length⟩) ∨
    (goes = false ∧ ready = false ∧ ∃ more now cursor, after.nextCursor = some cursor ∧
      Folding function partition output more now cursor after.tables ∧
      (now = true ∨ (now = false ∧ read < more ∧ 0 < after.processedRows) ∨
        (now = false ∧ read = 0 ∧ more = 0 ∧ 0 < loop.processedRows)))

theorem fold_item {budget : WorkBudget} (settings : Settings budget) {output read : Nat} {cursor : WindowFoldCursor}
    {loop : FoldLoop Value} (folding : Folding function partition output read ready cursor loop.tables)
    (next : loop.nextCursor = some cursor) (rowsOpen : loop.processedRows < budget.maxInputRows)
    (bytesOpen : loop.processedBytes < budget.maxInputBytes) (first : loop.processedRows = 0 ∨ (read = 0 ∧ ready = false)) :
    ∃ after goes, foldItem function partition budget loop = .ok (after, goes) ∧
      Rounding function partition budget output read ready loop after goes := by
  have opened := open_accumulator function partition folding
  obtain ⟨framed, going, ran, framing⟩ := fold_frame function partition budget settings output read ready folding.low folding.high
    folding.inside folding.whole cursor folding.cursor
    { loop with
      workItems := loop.workItems + 1
      stateRows := loop.stateRows + if decide (read = 0) && !ready then 1 else 0
      nextCursor := some cursor
      tables := { loop.tables with accumulator := some (accumulatorAt function output (outputRows partition output) read) } }
    folding.rest rfl rfl rowsOpen bytesOpen first
  obtain ⟨workItems, rows, within, values, kept, ends⟩ := framing
  change framed.workItems = loop.workItems + 1 at workItems
  change loop.processedRows ≤ framed.processedRows at rows
  change framed.tables.values = loop.tables.values at values
  change ready = true → framed.processedRows = loop.processedRows ∧ framed.processedBytes = loop.processedBytes at kept
  have isOrdinal : cursor.outputOrdinal = output := by rw [folding.cursor]
  rw [foldItem, next]
  simp only
  rw [opened, ok_bind]
  simp only
  rw [ran, ok_bind]
  simp only
  rcases ends with ⟨rfl, isNext, held⟩ | ⟨rfl, rfl, more, further, short, some, isNext, held⟩ | ⟨rfl, rfl, start, used, isNext, absent⟩
  · have waits : Folding function partition output (outputRows partition output).length true
        ⟨output, lastKey FoldRow.ordinal (outputRows partition output) (outputRows partition output).length, true⟩ framed.tables := by
      refine ⟨folding.low, folding.high, Nat.le_refl _, rfl, fun _ => rfl, fun wrong => (by cases wrong), values.trans folding.values, ?_⟩
      rw [held, if_neg]
      rintro ⟨_, wrong⟩
      cases wrong
    have rowsWithin := within.1
    rw [Bool.not_true, Bool.false_or]
    by_cases full : framed.processedRows = budget.maxInputRows ∨ budget.maxInputBytes ≤ framed.processedBytes
    · have isFull : (decide (framed.processedRows = budget.maxInputRows) || decide (budget.maxInputBytes ≤ framed.processedBytes)) = true := by
        rw [Bool.or_eq_true, decide_eq_true_eq, decide_eq_true_eq]
        exact full
      have unready : ready = false := by
        by_contra isReady
        obtain ⟨sameRows, sameBytes⟩ := kept (Bool.eq_true_of_not_eq_false isReady)
        omega
      rw [isFull, if_pos rfl]
      exact ⟨framed, false, rfl, workItems, rows, within, .inr (.inr ⟨rfl, unready, _, true, _, isNext, waits, .inl rfl⟩)⟩
    · have isOpen : (decide (framed.processedRows = budget.maxInputRows) || decide (budget.maxInputBytes ≤ framed.processedBytes)) =
          false := by
        rw [Bool.or_eq_false_iff, decide_eq_false_iff_not, decide_eq_false_iff_not]
        exact not_or.mp full
      obtain ⟨finalized, tables, finalizes, applied, isTables⟩ := finalize_fold function partition output folding.low folding.high
        framed.tables held (budget.maxInputRows - framed.processedRows) (budget.maxInputBytes - framed.processedBytes)
        (decide (framed.processedRows = 0)) (by omega) (Nat.le_trans (Nat.sub_le _ _) (Nat.le_of_lt settings.1))
        (Nat.le_trans (Nat.sub_le _ _) settings.2)
      rw [isOpen, if_neg Bool.false_ne_true, isOrdinal, finalizes, ok_bind]
      simp only
      by_cases isApplied : finalized.applied = true
      · have fits : finalized.workBytes ≤ budget.maxInputBytes - framed.processedBytes ∨ framed.processedRows = 0 := by
          rw [applied, Bool.or_eq_true, decide_eq_true_eq, decide_eq_true_eq] at isApplied
          exact isApplied
        have isWhole : Whole (framed.processedRows + 1) (framed.processedBytes + finalized.workBytes) budget.maxInputRows
            budget.maxInputBytes := by
          refine ⟨by omega, ?_⟩
          rcases fits with inside | alone
          · left
            omega
          · right
            omega
        have values : framed.tables.values ++ [((output : Int), outputValue function partition output)] =
            outputs function partition output := by
          rw [values, folding.values]
          exact outputs_next function partition output folding.low
        rw [isApplied, if_pos rfl, values] at isTables
        rw [isApplied, Bool.not_true, if_neg Bool.false_ne_true]
        by_cases isLast : (output : Int) = partition.rows.length
        · rw [decide_eq_true isLast, if_pos rfl]
          refine ⟨_, false, rfl, workItems, Nat.le_trans rows (Nat.le_succ _), isWhole, .inr (.inl ⟨rfl, rfl, ?_⟩)⟩
          rw [isTables, ← Int.ofNat.inj isLast]
        · rw [decide_eq_false isLast, if_neg Bool.false_ne_true]
          have high := folding.high
          refine ⟨_, true, rfl, workItems, Nat.le_trans rows (Nat.le_succ _), isWhole, .inl ⟨rfl, Nat.succ_pos _, _, rfl, ?_⟩⟩
          refine ⟨Nat.succ_pos _, by omega, Nat.zero_le _, ?_, fun wrong => (by cases wrong), fun _ => .inl rfl, ?_, ?_⟩
          · rw [lastKey, if_pos rfl]
            rfl
          · rw [isTables]
            rfl
          · rw [isTables, if_pos ⟨rfl, rfl⟩]
      · have unready : ready = false := by
          by_contra isReady
          have same := (kept (Bool.eq_true_of_not_eq_false isReady)).1
          rcases first with unused | ⟨_, wrong⟩
          · apply isApplied
            rw [applied, same, unused]
            exact Bool.or_true _
          · exact isReady wrong
        rw [Bool.not_eq_true] at isApplied
        rw [isApplied, if_neg Bool.false_ne_true] at isTables
        rw [isApplied, Bool.not_false, if_pos rfl, isTables]
        exact ⟨framed, false, rfl, workItems, rows, within, .inr (.inr ⟨rfl, unready, _, true, _, isNext, waits, .inl rfl⟩)⟩
  · rw [Bool.not_false, Bool.true_or, Bool.true_or, if_pos rfl]
    refine ⟨framed, false, rfl, workItems, rows, within, .inr (.inr ⟨rfl, rfl, more, false, _, isNext, ?_, .inr (.inl ⟨rfl, further, some⟩)⟩)⟩
    refine ⟨folding.low, folding.high, Nat.le_of_lt short, rfl, fun wrong => (by cases wrong), fun _ => .inr short, ?_, ?_⟩
    · rw [values, folding.values]
    · rw [held, if_neg]
      rintro ⟨nothing, _⟩
      omega
  · rw [Bool.not_false, Bool.true_or, Bool.true_or, if_pos rfl]
    refine ⟨framed, false, rfl, workItems, rows, within, .inr (.inr ⟨rfl, rfl, 0, false, cursor, isNext, ?_,
      .inr (.inr ⟨rfl, start, rfl, used⟩)⟩)⟩
    subst start
    exact ⟨folding.low, folding.high, folding.inside, folding.cursor, folding.whole, folding.rest, values.trans folding.values, absent⟩

end Shiba.Window
