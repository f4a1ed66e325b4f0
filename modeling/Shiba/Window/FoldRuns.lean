import Shiba.Window.FoldItem
import Shiba.Library.Rounds

set_option autoImplicit false

namespace Shiba.Window

open Shiba.Execution Spans Portions Rounds

variable {Row Value : Type} (function : FoldFunction Row Value) (partition : FoldPartition Row)

-- An output that a call has begun counts as visited.
def visit (read : Nat) (ready : Bool) : Nat := if ready || decide (0 < read) then 1 else 0

-- Where the rounds of a call leave off.
structure Looping (output read : Nat) (ready : Bool) (loop after : FoldLoop Value) (next more : Nat) (now : Bool)
    (cursor : WindowFoldCursor) : Prop where
  isNext : after.nextCursor = some cursor
  folding : Folding function partition next more now cursor after.tables
  onward : output ≤ next
  visited : output < next → loop.workItems + (next - output) + visit more now ≤ after.workItems
  moved : output = next → (more = read ∧ now = ready ∧ (0 < loop.processedRows ∨ after = loop)) ∨
    (ready = false ∧ (now = true ∨ (now = false ∧ read < more ∧ 0 < after.processedRows)) ∧ loop.workItems + 1 ≤ after.workItems)

def Done (tables : FoldTables Value) : Prop := tables = ⟨none, outputs function partition partition.rows.length⟩

variable (budget : WorkBudget) (settings : Settings budget)

include settings

-- The rounds of a call, from any of them on.
theorem fold_loop (items output read : Nat) (ready : Bool) (cursor : WindowFoldCursor) (loop : FoldLoop Value)
    (folding : Folding function partition output read ready cursor loop.tables) (isNext : loop.nextCursor = some cursor)
    (within : Whole loop.processedRows loop.processedBytes budget.maxInputRows budget.maxInputBytes)
    (first : loop.processedRows = 0 ∨ (read = 0 ∧ ready = false)) :
    ∃ after, foldLoop function partition budget items loop = .ok after ∧
      Whole after.processedRows after.processedBytes budget.maxInputRows budget.maxInputBytes ∧
      loop.workItems ≤ after.workItems ∧ after.workItems ≤ loop.workItems + items ∧
      (0 < items → loop.processedRows < budget.maxInputRows → loop.processedBytes < budget.maxInputBytes →
        loop.workItems < after.workItems) ∧
      ((after.nextCursor = none ∧ Done function partition after.tables) ∨
        ∃ next more now cursor, Looping function partition output read ready loop after next more now cursor) := by
  have still (at_ : FoldLoop Value) (other : Nat) (cursor : WindowFoldCursor) (ready : Bool) (read : Nat)
      (folding : Folding function partition other read ready cursor at_.tables) (isNext : at_.nextCursor = some cursor) :
      Looping function partition other read ready at_ at_ other read ready cursor :=
    ⟨isNext, folding, Nat.le_refl _, fun wrong => absurd wrong (Nat.lt_irrefl _), fun _ => .inl ⟨rfl, rfl, .inr rfl⟩⟩
  induction items generalizing output read ready cursor loop with
  | zero =>
      exact ⟨loop, rfl, within, Nat.le_refl _, Nat.le_refl _, fun wrong => absurd wrong (Nat.lt_irrefl _), .inr ⟨_, _, _, _, still loop output cursor ready read folding isNext⟩⟩
  | succ items ih =>
      rw [foldLoop]
      by_cases isOpen : loop.processedRows < budget.maxInputRows ∧ loop.processedBytes < budget.maxInputBytes
      · rw [if_pos isOpen]
        obtain ⟨turn, goes, ran, rounding⟩ := fold_item function partition settings folding isNext isOpen.1 isOpen.2 first
        rw [ran, ok_bind]
        simp only
        obtain ⟨workItems, rows, turned, ends⟩ := rounding
        rcases ends with ⟨rfl, some, later, isLater, fresh⟩ | ⟨rfl, isNone, done⟩ | ⟨rfl, unready, more, now, later, isLater, waits, moved⟩
        · rw [if_pos rfl]
          obtain ⟨after, loops, kept, least, most, _, ends⟩ := ih (output + 1) 0 false later turn fresh isLater turned (.inr ⟨rfl, rfl⟩)
          refine ⟨after, loops, kept, by omega, by omega, fun _ _ _ => by omega, ?_⟩
          rcases ends with finished | ⟨next, more, now, other, looping⟩
          · exact .inl finished
          · right
            obtain ⟨isOther, last, onward, visited, changed⟩ := looping
            refine ⟨next, more, now, other, isOther, last, by omega, ?_, fun same => absurd same (by omega)⟩
            intro _
            rcases Nat.lt_or_eq_of_le onward with beyond | same
            · have seen := visited beyond
              omega
            · rcases changed same with ⟨rfl, rfl, _⟩ | ⟨_, _, seen⟩
              · have unseen : visit 0 false = 0 := rfl
                omega
              · have bound : visit more now ≤ 1 := by
                  rw [visit]
                  split <;> omega
                omega
        · rw [if_neg Bool.false_ne_true]
          exact ⟨turn, rfl, turned, by omega, by omega, fun _ _ _ => by omega, .inl ⟨isNone, done⟩⟩
        · rw [if_neg Bool.false_ne_true]
          refine ⟨turn, rfl, turned, by omega, by omega, fun _ _ _ => by omega, .inr ⟨output, more, now, later, isLater, waits, Nat.le_refl _,
            fun wrong => absurd wrong (Nat.lt_irrefl _), ?_⟩⟩
          intro _
          rcases moved with isNow | ⟨isNow, further, some⟩ | ⟨isNow, start, same, used⟩
          · exact .inr ⟨unready, .inl isNow, by omega⟩
          · exact .inr ⟨unready, .inr ⟨isNow, further, some⟩, by omega⟩
          · exact .inl ⟨by rw [same, start], by rw [isNow, unready], .inl used⟩
      · rw [if_neg isOpen]
        exact ⟨loop, rfl, within, Nat.le_refl _, Nat.le_add_right _ _, fun _ rows bytes => absurd ⟨rows, bytes⟩ isOpen,
          .inr ⟨_, _, _, _, still loop output cursor ready read folding isNext⟩⟩

omit settings in
theorem last_key_positive (output count : Nat) (ordinal : Int)
    (isLast : lastKey FoldRow.ordinal (outputRows partition output) count = some ordinal) : 1 ≤ ordinal := by
  rw [lastKey] at isLast
  by_cases start : count = 0
  · rw [if_pos start] at isLast
    cases isLast
  · rw [if_neg start] at isLast
    obtain ⟨row, isRow, rfl⟩ := Option.map_eq_some_iff.mp isLast
    have member := List.mem_of_getElem? isRow
    have inRows : row ∈ partition.rows := by
      rw [outputRows] at member
      cases isFrame : frameAt partition output with
      | none =>
          rw [isFrame] at member
          cases member
      | some frame =>
          rw [isFrame] at member
          exact List.mem_of_mem_filter member
    have ordinals : row.ordinal ∈ partition.rows.map FoldRow.ordinal := List.mem_map_of_mem inRows
    rw [partition.ordinals] at ordinals
    obtain ⟨index, _, same⟩ := List.mem_map.mp ordinals
    omega

omit settings in
theorem cursor_valid {output read : Nat} {ready : Bool} {cursor : WindowFoldCursor} {tables : FoldTables Value}
    (folding : Folding function partition output read ready cursor tables) : cursor.validate = .ok () := by
  have low := folding.low
  rw [folding.cursor, WindowFoldCursor.validate, refuse_ok, Bool.or_eq_false_iff, decide_eq_false_iff_not]
  refine ⟨by simp only []; omega, ?_⟩
  cases isLast : lastKey FoldRow.ordinal (outputRows partition output) read with
  | none => rfl
  | some ordinal =>
      have positive := last_key_positive partition output read ordinal isLast
      exact decide_eq_false (by omega)

-- How much of a function is left: more for an output that is not begun.
def foldLeft (state : FoldState Value) : Nat :=
  match state.cursor with
  | none => 0
  | some cursor =>
      (partition.rows.length - cursor.outputOrdinal.toNat) * (partition.rows.length + 3) +
        (((outputRows partition cursor.outputOrdinal.toNat).filter fun row =>
          cursor.lastFrameOrdinal.all fun last => decide (last < row.ordinal)).length + if cursor.readyToFinalize then 1 else 2)

variable {function}

variable {more read output : Nat} {now ready : Bool} {tables : FoldTables Value} {later cursor : WindowFoldCursor}

omit settings in
theorem folding_left (folding : Folding function partition output read ready cursor tables) :
    foldLeft partition ⟨some cursor, tables⟩ = (partition.rows.length - output) * (partition.rows.length + 3) +
      ((outputRows partition output).length - read + if ready then 1 else 2) := by
  have rest := filter_behind _ (output_rising partition output folding.low folding.high) read folding.inside
  rw [foldLeft, folding.cursor]
  simp only [Int.toNat_natCast]
  rw [rest, List.length_drop]

omit settings in
-- A page of a call that did its work is accepted.
theorem fold_page_valid {loop : FoldLoop Value} {previous : WindowFoldCursor}
    (within : Whole loop.processedRows loop.processedBytes budget.maxInputRows budget.maxInputBytes) (worked : 0 < loop.workItems)
    (few : loop.workItems ≤ foldWorkItemCap)
    (resumes : ∀ next, loop.nextCursor = some next → next.validate = .ok () ∧ previous.outputOrdinal ≤ next.outputOrdinal ∧
      ∃ visit, currentVisit loop.page previous next = .ok visit ∧
        (next.outputOrdinal - previous.outputOrdinal).toNat + visit ≤ loop.workItems) :
    loop.page.validate previous budget false = .ok () := by
  have usage : loop.page.facts.usage.validate budget = .ok () :=
    (validate_whole _ _).mpr ⟨within, Nat.zero_le _, .inl (Nat.zero_le _)⟩
  have facts : loop.page.facts.validate budget = .ok () := by
    rw [PrimitiveFacts.validate, usage]
    rfl
  rw [WindowFoldPage.validate, facts, ok_bind, refuse_ok.mpr rfl, ok_bind]
  change (refuse (decide (loop.workItems = 0) || decide (foldWorkItemCap < loop.workItems)) _ >>= fun _ => _) = _
  rw [decide_eq_false (by omega), decide_eq_false (by omega), Bool.or_self, refuse_ok.mpr rfl, ok_bind]
  change (match loop.nextCursor with | none => _ | some next => _) = _
  cases isNext : loop.nextCursor with
  | none => rfl
  | some next =>
      obtain ⟨valid, onward, visit, visited, enough⟩ := resumes next isNext
      change (next.validate >>= fun _ => refuse (decide (next.outputOrdinal < previous.outputOrdinal)) _ >>= fun _ =>
        currentVisit loop.page previous next >>= fun visit =>
          refuse (decide (loop.workItems < (next.outputOrdinal - previous.outputOrdinal).toNat + visit)) _) = _
      rw [valid, ok_bind, refuse_ok.mpr (decide_eq_false (by omega)), ok_bind, visited, ok_bind, refuse_ok]
      exact decide_eq_false (by omega)

omit settings in
theorem last_key_below (items : List (FoldRow Row)) (increasing : items.Pairwise fun a b => a.ordinal < b.ordinal) (fewer more : Nat)
    (less : fewer < more) (inside : more ≤ items.length) :
    rowIdBelow (lastKey FoldRow.ordinal items fewer) (lastKey FoldRow.ordinal items more) = true := by
  by_cases start : fewer = 0
  · have present : (lastKey FoldRow.ordinal items more).isNone = false := by
      rw [last_key_none _ _ inside, decide_eq_false_iff_not]
      omega
    obtain ⟨last, isLast⟩ := Option.isSome_iff_exists.mp (Option.isNone_eq_false_iff.mp present)
    rw [isLast, lastKey, if_pos start]
    rfl
  · obtain ⟨first, second, isFirst, isSecond, below⟩ := last_key_less items increasing fewer more (by omega) less inside
    rw [isFirst, isSecond]
    exact decide_eq_true below

omit settings in
theorem output_bound (output : Nat) : (outputRows partition output).length ≤ partition.rows.length := by
  rw [outputRows]
  cases frameAt partition output with
  | none => exact Nat.zero_le _
  | some frame => exact List.length_filter_le _ _

omit settings in
section

variable (folding : Folding function partition output read ready cursor tables) {after : FoldLoop Value}
  (worked : 0 < after.workItems) {next : Nat}
  (looping : Looping function partition output read ready { nextCursor := some cursor, tables := tables } after next more now later)

include folding worked looping

-- The page names as many visits as the call made.
theorem looping_visit :
    ∃ visit, currentVisit after.page cursor later = .ok visit ∧ (later.outputOrdinal - cursor.outputOrdinal).toNat + visit ≤ after.workItems := by
  obtain ⟨isNext, waits, onward, visited, moved⟩ := looping
  rw [currentVisit, folding.cursor, waits.cursor]
  simp only
  rcases Nat.lt_or_eq_of_le onward with beyond | rfl
  · have apart : ¬ (next : Int) = output := by omega
    have seen := visited beyond
    have begun : (lastKey FoldRow.ordinal (outputRows partition next) more).isSome = decide (0 < more) := by
      rw [← Option.not_isNone, last_key_none _ _ waits.inside, ← decide_not, decide_eq_decide]
      omega
    rw [if_neg apart, begun]
    refine ⟨visit more now, rfl, ?_⟩
    change 0 + (next - output) + visit more now ≤ after.workItems at seen
    omega
  · rw [if_pos rfl]
    rcases moved rfl with ⟨_, _, wrong | rfl⟩ | ⟨rfl, rfl | ⟨rfl, further, some⟩, _⟩
    · exact absurd wrong (Nat.lt_irrefl _)
    · exact absurd worked (Nat.lt_irrefl _)
    · exact ⟨1, rfl, by omega⟩
    · have below := last_key_below _ (output_rising partition output folding.low folding.high) read more further waits.inside
      have present : (lastKey FoldRow.ordinal (outputRows partition output) more).isSome = true := by
        rw [← Option.not_isNone, last_key_none _ _ waits.inside, decide_eq_false (by omega)]
        rfl
      refine ⟨1, ?_, by omega⟩
      simp only
      rw [if_pos ⟨some, present, below⟩]

omit settings in
theorem looping_less :
    foldLeft partition ⟨some later, after.tables⟩ < foldLeft partition ⟨some cursor, tables⟩ := by
  obtain ⟨isNext, waits, onward, visited, moved⟩ := looping
  rw [folding_left partition folding, folding_left partition waits]
  rcases Nat.lt_or_eq_of_le onward with beyond | rfl
  · have bound := output_bound partition next
    have high := waits.high
    have factor : partition.rows.length - next + 1 ≤ partition.rows.length - output := by omega
    have product := Nat.mul_le_mul_right (partition.rows.length + 3) factor
    rw [Nat.add_mul, Nat.one_mul] at product
    split <;> split <;> omega
  · have inside := waits.inside
    rcases moved rfl with ⟨_, _, wrong | rfl⟩ | ⟨rfl, rfl | ⟨rfl, further, some⟩, _⟩
    · exact absurd wrong (Nat.lt_irrefl _)
    · exact absurd worked (Nat.lt_irrefl _)
    · have whole := waits.whole rfl
      rw [if_pos rfl, if_neg Bool.false_ne_true]
      omega
    · rw [if_neg Bool.false_ne_true]
      omega

end

-- Every call succeeds, and leaves less to do.
theorem fold_step (folding : Folding function partition output read ready cursor tables) :
    ∃ after, foldStep function partition ⟨some cursor, tables⟩ budget = .ok after ∧
      foldLeft partition after < foldLeft partition ⟨some cursor, tables⟩ ∧
      ((after.cursor = none ∧ Done function partition after.tables) ∨
        ∃ output read ready cursor, after.cursor = some cursor ∧ Folding function partition output read ready cursor after.tables) := by
  have low := folding.low
  have high := folding.high
  obtain ⟨after, loops, within, _, most, worked, ends⟩ := fold_loop function partition budget settings foldWorkItemCap output read ready
    cursor { nextCursor := some cursor, tables := tables } folding rfl ⟨Nat.zero_le _, .inl (Nat.zero_le _)⟩ (.inl rfl)
  have busy : 0 < after.workItems := worked (by decide) budget.inputRowsPositive budget.inputBytesPositive
  change after.workItems ≤ 0 + foldWorkItemCap at most
  have isCursor : cursor.outputOrdinal = output := by rw [folding.cursor]
  have filled : partition.rows ≠ [] := by
    intro empty
    rw [empty, List.length_nil] at high
    omega
  have primitive : runWindowAggregateFold function partition tables cursor budget = .ok (after.page, after.tables) := by
    rw [runWindowAggregateFold, isCursor, refuse_ok.mpr (decide_eq_false (by omega)), ok_bind, if_neg filled, loops]
    rfl
  have steps (valid : after.page.validate cursor budget false = .ok ()) :
      foldStep function partition ⟨some cursor, tables⟩ budget = .ok ⟨after.nextCursor, after.tables⟩ := by
    rw [foldStep]
    simp only
    rw [primitive, ok_bind]
    simp only
    rw [valid]
    rfl
  rcases ends with ⟨isNone, done⟩ | ⟨next, more, now, later, looping⟩
  · refine ⟨_, steps ?_, ?_, .inl ⟨isNone, done⟩⟩
    · apply fold_page_valid budget within busy (by omega)
      intro next isNext
      rw [isNone] at isNext
      cases isNext
    · rw [isNone, folding_left partition folding]
      change 0 < _
      split <;> omega
  · have isNext := looping.isNext
    have waits := looping.folding
    have onward := looping.onward
    have isLater : later.outputOrdinal = next := by rw [waits.cursor]
    refine ⟨_, steps ?_, ?_, .inr ⟨next, more, now, later, isNext, waits⟩⟩
    · apply fold_page_valid budget within busy (by omega)
      intro other isOther
      obtain rfl := Option.some.inj (isNext.symm.trans isOther)
      exact ⟨cursor_valid function partition waits, by omega, looping_visit partition folding busy looping⟩
    · rw [isNext]
      exact looping_less partition folding busy looping

end Shiba.Window
