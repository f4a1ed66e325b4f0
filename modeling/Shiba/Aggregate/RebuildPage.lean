import Shiba.Aggregate.Rebuild
import Shiba.Library.Fetch
import Shiba.Library.Portions

set_option autoImplicit false

namespace Shiba.Aggregate

open Shiba.Execution Lexicographic

variable {Expr Row Value : Type}

-- The copies of rows, each with the copies of its row that follow it.
def unitsOf (effective : BagRow Row → Nat) (rows : List (BagRow Row)) : List (Occurrence Row) :=
  rows.flatMap fun row => (List.range (effective row)).map fun index => ⟨row, effective row - (index + 1)⟩

section Units

variable (effective : BagRow Row → Nat)

theorem units_cons (row : BagRow Row) (rest : List (BagRow Row)) :
    unitsOf effective (row :: rest) =
      ((List.range (effective row)).map fun index => ⟨row, effective row - (index + 1)⟩) ++ unitsOf effective rest := rfl

theorem source_units (rawRows preceding : Nat) (rows : List (BagRow Row)) :
    sourceFrom rawRows effective preceding rows = (unitsOf effective rows).take (rawRows - preceding) := by
  induction rows generalizing preceding with
  | nil => rw [sourceFrom, unitsOf, List.flatMap_nil, List.take_nil]
  | cons row rest ih =>
      have later : rawRows - (preceding + effective row) = rawRows - preceding - effective row := by omega
      rw [sourceFrom, units_cons, ih, List.take_append, List.length_map, List.length_range, later]
      by_cases room : preceding < rawRows
      · rw [if_pos room, ← List.map_take, List.take_range, Nat.min_comm]
      · rw [if_neg room]
        have none : rawRows - preceding = 0 := by omega
        rw [none, List.take_zero]

theorem units_congr (other : BagRow Row → Nat) (rows : List (BagRow Row)) (same : ∀ row ∈ rows, effective row = other row) :
    unitsOf effective rows = unitsOf other rows := by
  induction rows with
  | nil => rfl
  | cons row rest ih =>
      rw [units_cons, units_cons, same row List.mem_cons_self, ih fun other member => same other (List.mem_cons_of_mem _ member)]

-- So many rows hold so many copies.
theorem units_limited (limit : Nat) (rows : List (BagRow Row)) (positive : ∀ row ∈ rows, 0 < effective row) :
    (unitsOf effective (rows.take limit)).take limit = (unitsOf effective rows).take limit := by
  induction rows generalizing limit with
  | nil => rw [List.take_nil]
  | cons row rest ih =>
      cases limit with
      | zero => rw [List.take_zero, List.take_zero]
      | succ limit =>
          have some := positive row List.mem_cons_self
          rw [List.take_succ_cons, units_cons, units_cons, List.take_append, List.take_append, List.length_map, List.length_range]
          have shorter (rows : List (BagRow Row)) : (unitsOf effective rows).take (limit + 1 - effective row) =
              ((unitsOf effective rows).take limit).take (limit + 1 - effective row) := by
            rw [List.take_take, Nat.min_eq_left (by omega)]
          rw [shorter (rest.take limit), ih limit fun other member => positive other (List.mem_cons_of_mem _ member),
            ← shorter rest]

-- Behind a copy there are the copies of its row that follow it, and the rows behind.
theorem units_behind (rows : List (BagRow Row)) (earlier later : List (Occurrence Row)) (last : Occurrence Row)
    (split : unitsOf effective rows = earlier ++ last :: later) :
    ∃ before behind, rows = before ++ last.row :: behind ∧ last.remainingAfter < effective last.row ∧
      later = ((List.range last.remainingAfter).map fun index => ⟨last.row, last.remainingAfter - (index + 1)⟩) ++
        unitsOf effective behind := by
  induction rows generalizing earlier with
  | nil =>
      rw [unitsOf, List.flatMap_nil] at split
      exact absurd split.symm (by simp)
  | cons row rest ih =>
      rw [units_cons] at split
      have rear := congrArg (List.drop earlier.length) split
      rw [List.drop_left] at rear
      by_cases inside : earlier.length < effective row
      · rw [List.drop_append_of_le_length (by rw [List.length_map, List.length_range]; omega), ← List.map_drop,
          List.drop_eq_getElem_cons (by rw [List.length_range]; exact inside), List.getElem_range, List.map_cons,
          List.cons_append] at rear
        obtain ⟨here, tail⟩ := List.cons.inj rear
        subst here
        refine ⟨[], rest, rfl, ?_, ?_⟩
        · change effective row - (earlier.length + 1) < effective row
          omega
        · rw [← tail]
          congr 1
          apply List.ext_getElem?
          intro index
          rw [List.getElem?_map, List.getElem?_map, List.getElem?_drop]
          change ((List.range (effective row))[earlier.length + 1 + index]?).map _ =
            ((List.range (effective row - (earlier.length + 1)))[index]?).map _
          by_cases within : index < effective row - (earlier.length + 1)
          · rw [List.getElem?_range within, List.getElem?_range (by omega), Option.map_some, Option.map_some]
            congr 2
            change effective row - (earlier.length + 1 + index + 1) = effective row - (earlier.length + 1) - (index + 1)
            omega
          · rw [List.getElem?_eq_none (by rw [List.length_range]; omega), List.getElem?_eq_none (by rw [List.length_range]; omega)]
            rfl
      · have front := congrArg (List.take earlier.length) split
        rw [List.take_left, List.take_append, List.length_map, List.length_range, List.take_of_length_le (by
          rw [List.length_map, List.length_range]
          omega)] at front
        rw [← front, List.append_assoc] at split
        obtain ⟨before, behind, rows, small, same⟩ := ih _ (List.append_cancel_left split)
        exact ⟨row :: before, behind, by rw [rows, List.cons_append], small, same⟩

end Units

section Source

variable (scalars : Scalars Expr Row Value) (aggregate : AggregateExpr Expr Value) (keys : List (AggregateOrderKey Expr))
  (bag : GroupBag Row)

def rebuildColumns : List (KeyColumn (BagRow Row) Value) := keys.map fun key => keyColumn scalars key.expression

-- The rows of the bag in the order of the keys, then the row id.
def orderedRows : List (BagRow Row) := orderBy BagRow.rowId (rebuildColumns scalars keys) bag.rows

def copiesOf (row : BagRow Row) : Nat := if aggregate.distinct.isEmpty then row.multiplicity else 1

-- Everything that the pages read, one copy after the other.
def rebuildUnits : List (Occurrence Row) := unitsOf (copiesOf aggregate) (orderedRows scalars keys bag)

-- The cursor stands behind the last copy that was read.
def CursorAt (work : WorkRow Value) : Option (Occurrence Row) → Prop
  | none => work.hasCursor = false ∧ work.remainingMultiplicity = none
  | some last =>
      work.hasCursor = true ∧ work.cursorRowId = some last.row.rowId ∧
        work.cursorOrder = (rebuildColumns scalars keys).map (fun key => key.column last.row) ∧
        work.remainingMultiplicity =
          if aggregate.distinct.isEmpty && decide (0 < last.remainingAfter) then some last.remainingAfter else none

theorem rows_untied : bag.rows.Pairwise fun a b => tied (orderBefore BagRow.rowId (rebuildColumns scalars keys)) a b = false := by
  have nodup := bag.distinct
  rw [List.Nodup, List.pairwise_map] at nodup
  apply nodup.imp
  intro a b apart
  by_contra ties
  exact apart (keys_equal_tied (rebuildColumns scalars keys) (Bool.not_eq_false _ ▸ ties))

theorem ordered_strict :
    (orderedRows scalars keys bag).Pairwise fun a b => orderBefore BagRow.rowId (rebuildColumns scalars keys) a b = true :=
  sorted_strict (order_weak _ _) (rows_untied scalars keys bag)

theorem ordered_mem (row : BagRow Row) : row ∈ orderedRows scalars keys bag ↔ row ∈ bag.rows :=
  (sorted_perm bag.rows).mem_iff

theorem copies_positive (row : BagRow Row) (member : row ∈ bag.rows) : 0 < copiesOf aggregate row := by
  rw [copiesOf]
  by_cases plain : aggregate.distinct.isEmpty = true
  · rw [if_pos plain]
    exact bag.positive row member
  · rw [if_neg plain]
    exact Nat.one_pos

theorem same_row {first second : BagRow Row} (one : first ∈ bag.rows) (other : second ∈ bag.rows) (same : first.rowId = second.rowId) :
    first = second :=
  List.inj_on_of_nodup_map bag.distinct one other same

variable (work : WorkRow Value)

-- The candidates are the first rows that some range keeps.
theorem candidates_kept (going : work.complete = false) (rawRows : Nat)
    (apart : (candidateRanges scalars keys work).Pairwise fun first second =>
      ∀ row ∈ bag.rows, first row = true → second row = false) :
    bagCandidates scalars keys bag.rows work rawRows =
      ((orderedRows scalars keys bag).filter fun row => (candidateRanges scalars keys work).any fun range => range row).take
        rawRows := by
  have weak := order_weak BagRow.rowId (rebuildColumns scalars keys)
  have untied := rows_untied scalars keys bag
  obtain ⟨limited, _⟩ := sorted_ranges weak rawRows (candidateRanges scalars keys work) bag.rows untied apart
  rw [orderedRows, orderBy, ← sorted_filter weak bag.rows untied, ← limited, bagCandidates]
  simp only [going, Bool.not_false, Bool.true_and]
  rfl

theorem range_row_keys (row last : BagRow Row) (id : work.cursorRowId = some last.rowId)
    (order : work.cursorOrder = (rebuildColumns scalars keys).map fun key => key.column last) :
    rangeRows (rebuildColumns scalars keys) work row "work" = (keyRow BagRow.rowId (rebuildColumns scalars keys) last).values ∧
      rangeRows (rebuildColumns scalars keys) work row "bag" = (keyRow BagRow.rowId (rebuildColumns scalars keys) row).values := by
  constructor
  · rw [rangeRows, if_pos rfl, order, id]
    rfl
  · rw [rangeRows, if_neg (by decide)]

theorem source_start (going : work.complete = false) (cursor : CursorAt scalars aggregate keys work none) (rawRows : Nat) :
    sourceFrom rawRows (effectiveMultiplicity (!aggregate.distinct.isEmpty) work) 0 (bagCandidates scalars keys bag.rows work rawRows) =
      (rebuildUnits scalars aggregate keys bag).take rawRows := by
  obtain ⟨fresh, whole⟩ := cursor
  have later (range : BagRow Row → Bool) (member : range ∈ (candidateRanges scalars keys work).tail) (row : BagRow Row) :
      range row = false := by
    rw [candidateRanges] at member
    simp only [List.tail_cons] at member
    rcases List.mem_cons.mp member with same | rest
    · rw [same, whole]
      rfl
    · obtain ⟨predicate, _, same⟩ := List.mem_map.mp rest
      rw [← same, fresh]
      rfl
  have split : candidateRanges scalars keys work = (fun _ => !work.hasCursor) :: (candidateRanges scalars keys work).tail := rfl
  have apart : (candidateRanges scalars keys work).Pairwise fun first second =>
      ∀ row ∈ bag.rows, first row = true → second row = false := by
    rw [split, List.pairwise_cons]
    constructor
    · intro range member row _ _
      exact later range member row
    · rw [List.pairwise_iff_getElem]
      intro first second one other _ row _ wrong
      rw [later _ (List.getElem_mem one) row] at wrong
      cases wrong
  have all : (orderedRows scalars keys bag).filter (fun row => (candidateRanges scalars keys work).any fun range => range row) =
      orderedRows scalars keys bag := by
    rw [List.filter_eq_self]
    intro row _
    rw [split, List.any_cons, fresh]
    rfl
  have effective : (effectiveMultiplicity (!aggregate.distinct.isEmpty) work : BagRow Row → Nat) = copiesOf aggregate := by
    funext row
    rw [effectiveMultiplicity, whole, copiesOf]
    cases aggregate.distinct.isEmpty <;> rfl
  rw [candidates_kept scalars keys bag work going rawRows apart, all, effective, source_units, Nat.sub_zero,
    units_limited _ _ _ fun row member => copies_positive aggregate bag row ((ordered_mem scalars keys bag row).mp member)]
  rfl

-- The ranges together are the rows behind the cursor, and no row is in two of them.
theorem ranges_behind {work : WorkRow Value} {last : BagRow Row} (row : BagRow Row) (id : work.cursorRowId = some last.rowId)
    (order : work.cursorOrder = (rebuildColumns scalars keys).map fun key => key.column last) :
    ((aggregateRebuildOrder (keys.map fun key => (scalars.resolveBtree key.expression, key.column))).any fun range =>
        ThreeValued.holds (KeyTest.value (rangeRows (rebuildColumns scalars keys) work row)) range) =
          orderBefore BagRow.rowId (rebuildColumns scalars keys) last row ∧
      (aggregateRebuildOrder (keys.map fun key => (scalars.resolveBtree key.expression, key.column))).Pairwise fun one other =>
        ThreeValued.holds (KeyTest.value (rangeRows (rebuildColumns scalars keys) work row)) one = true →
          ThreeValued.holds (KeyTest.value (rangeRows (rebuildColumns scalars keys) work row)) other = false := by
  obtain ⟨first, second⟩ := range_row_keys scalars keys work row last id order
  constructor
  · have orders : (rebuildColumns scalars keys).map KeyColumn.toBtreeOrder =
        (keys.map fun key => (scalars.resolveBtree key.expression, key.column)).map Prod.fst := by
      rw [rebuildColumns, List.map_map, List.map_map]
      rfl
    have after := strictly_after_entry BagRow.rowId (rebuildColumns scalars keys) last row
    rw [orders, strictlyAfter] at after
    rw [aggregateRebuildOrder, ranges_cover _ _ _ first second, List.all_nil, Bool.true_and, after]
  · exact ranges_apart _ _ _ first second _ 0 []

theorem source_resumed {work : WorkRow Value} (going : work.complete = false) {earlier later : List (Occurrence Row)}
    {last : Occurrence Row} (split : rebuildUnits scalars aggregate keys bag = earlier ++ last :: later)
    (cursor : CursorAt scalars aggregate keys work (some last)) (rawRows : Nat) :
    sourceFrom rawRows (effectiveMultiplicity (!aggregate.distinct.isEmpty) work) 0 (bagCandidates scalars keys bag.rows work rawRows) =
      later.take rawRows := by
  obtain ⟨moved, id, order, remaining⟩ := cursor
  obtain ⟨before, behind, rows, small, same⟩ := units_behind _ _ _ _ _ split
  have weak := order_weak BagRow.rowId (rebuildColumns scalars keys)
  have strict := ordered_strict scalars keys bag
  have listed (row : BagRow Row) : row ∈ bag.rows ↔ row ∈ before ++ last.row :: behind := by
    rw [← rows, ordered_mem]
  have here : last.row ∈ bag.rows := (listed last.row).mpr (List.mem_append_right _ List.mem_cons_self)
  have rear : (orderedRows scalars keys bag).filter (orderBefore BagRow.rowId (rebuildColumns scalars keys) last.row) = behind := by
    rw [rows] at strict ⊢
    exact filter_after weak strict
  -- Copies of the last row are left only where the aggregate reads every copy.
  have tuples (left : 0 < last.remainingAfter) : aggregate.distinct.isEmpty = true := by
    by_contra distinct
    rw [copiesOf, if_neg distinct] at small
    omega
  have left : work.remainingMultiplicity = if 0 < last.remainingAfter then some last.remainingAfter else none := by
    rw [remaining]
    by_cases more : 0 < last.remainingAfter
    · rw [tuples more, decide_eq_true more, if_pos more]
      rfl
    · rw [decide_eq_false more, Bool.and_false, if_neg more]
      rfl
  have again (row : BagRow Row) (member : row ∈ bag.rows) :
      (work.remainingMultiplicity.isSome && decide (work.cursorRowId = some row.rowId)) = true ↔
        0 < last.remainingAfter ∧ row = last.row := by
    rw [Bool.and_eq_true, left, id, decide_eq_true_eq, Option.some_inj]
    constructor
    · intro ⟨stored, ids⟩
      refine ⟨?_, same_row bag member here ids.symm⟩
      by_contra closed
      rw [if_neg closed] at stored
      cases stored
    · intro ⟨more, equal⟩
      rw [if_pos more, equal]
      exact ⟨rfl, rfl⟩
  have itself : orderBefore BagRow.rowId (rebuildColumns scalars keys) last.row last.row = false := irreflexive weak last.row
  have apart : (candidateRanges scalars keys work).Pairwise fun first second =>
      ∀ row ∈ bag.rows, first row = true → second row = false := by
    rw [candidateRanges]
    simp only [moved, Bool.not_true, Bool.true_and]
    rw [List.pairwise_cons, List.pairwise_cons]
    refine ⟨?_, ?_, ?_⟩
    · intro range _ row _ wrong
      cases wrong
    · intro range member row inside first
      obtain ⟨predicate, chosen, equal⟩ := List.mem_map.mp member
      rw [((again row inside).mp first).2, ← equal]
      have none := (ranges_behind scalars keys last.row id order).1
      rw [itself, List.any_eq_false] at none
      exact Bool.eq_false_iff.mpr (none predicate chosen)
    · rw [List.pairwise_map, List.pairwise_iff_getElem]
      intro first second one other less row _ held
      exact List.pairwise_iff_getElem.mp (ranges_behind scalars keys row id order).2 first second one other less held
  have chosen (row : BagRow Row) (member : row ∈ bag.rows) :
      ((candidateRanges scalars keys work).any fun range => range row) = true ↔
        (0 < last.remainingAfter ∧ row = last.row) ∨
          orderBefore BagRow.rowId (rebuildColumns scalars keys) last.row row = true := by
    rw [candidateRanges]
    simp only [moved, Bool.not_true, Bool.true_and]
    rw [List.any_cons, List.any_cons, Bool.false_or, Bool.or_eq_true, again row member, List.any_map,
      ← (ranges_behind scalars keys row id order).1]
    rfl
  have kept : (orderedRows scalars keys bag).filter (fun row => (candidateRanges scalars keys work).any fun range => range row) =
      (if 0 < last.remainingAfter then [last.row] else []) ++ behind := by
    rw [rows] at strict ⊢
    have ordered := List.pairwise_append.mp strict
    have front : before.filter (fun row => (candidateRanges scalars keys work).any fun range => range row) = [] := by
      rw [List.filter_eq_nil_iff]
      intro row member kept
      have ahead := ordered.2.2 row member last.row List.mem_cons_self
      rcases (chosen row ((listed row).mpr (List.mem_append_left _ member))).mp kept with ⟨_, equal⟩ | wrong
      · rw [equal, itself] at ahead
        cases ahead
      · rw [weak.asymmetric row last.row ahead] at wrong
        cases wrong
    have rest : behind.filter (fun row => (candidateRanges scalars keys work).any fun range => range row) = behind := by
      rw [List.filter_eq_self]
      intro row member
      have inside := (listed row).mpr (List.mem_append_right _ (List.mem_cons_of_mem _ member))
      exact (chosen row inside).mpr (Or.inr ((List.pairwise_cons.mp ordered.2.1).1 row member))
    rw [List.filter_append, front, List.nil_append, List.filter_cons, rest]
    by_cases more : 0 < last.remainingAfter
    · rw [if_pos ((chosen last.row here).mpr (Or.inl ⟨more, rfl⟩)), if_pos more]
      rfl
    · rw [if_neg more, if_neg]
      · rfl
      · intro wrong
        rcases (chosen last.row here).mp wrong with ⟨some, _⟩ | wrong
        · exact more some
        · rw [itself] at wrong
          cases wrong
  have others (row : BagRow Row) (member : row ∈ behind) :
      effectiveMultiplicity (!aggregate.distinct.isEmpty) work row = copiesOf aggregate row := by
    have inside := (listed row).mpr (List.mem_append_right _ (List.mem_cons_of_mem _ member))
    have apartRows : work.cursorRowId ≠ some row.rowId := by
      intro wrong
      rw [id, Option.some_inj] at wrong
      rw [rows, List.pairwise_append, List.pairwise_cons] at strict
      have after := strict.2.1.1 row member
      rw [← same_row bag here inside wrong, itself] at after
      cases after
    rw [effectiveMultiplicity, copiesOf]
    cases aggregate.distinct.isEmpty with
    | false => rfl
    | true =>
        cases work.remainingMultiplicity with
        | none => rfl
        | some remaining => exact if_neg apartRows
  have whole : unitsOf (effectiveMultiplicity (!aggregate.distinct.isEmpty) work)
      ((if 0 < last.remainingAfter then [last.row] else []) ++ behind) = later := by
    rw [same]
    by_cases more : 0 < last.remainingAfter
    · have rest : effectiveMultiplicity (!aggregate.distinct.isEmpty) work last.row = last.remainingAfter := by
        rw [effectiveMultiplicity, tuples more, left, if_pos more, id]
        exact if_pos rfl
      rw [if_pos more, List.singleton_append, units_cons, rest, units_congr _ _ behind others]
    · have none : last.remainingAfter = 0 := by omega
      rw [if_neg more, List.nil_append, none, units_congr _ _ behind others]
      rfl
  have positive : ∀ row ∈ (if 0 < last.remainingAfter then [last.row] else []) ++ behind,
      0 < effectiveMultiplicity (!aggregate.distinct.isEmpty) work row := by
    intro row member
    rcases List.mem_append.mp member with resumed | later
    · by_cases more : 0 < last.remainingAfter
      · rw [if_pos more, List.mem_singleton] at resumed
        rw [resumed, effectiveMultiplicity, tuples more, left, if_pos more, id]
        exact (if_pos rfl).symm ▸ more
      · rw [if_neg more] at resumed
        cases resumed
    · rw [others row later]
      exact copies_positive aggregate bag row ((listed row).mpr (List.mem_append_right _ (List.mem_cons_of_mem _ later)))
  rw [candidates_kept scalars keys bag work going rawRows apart, kept, source_units, Nat.sub_zero,
    units_limited _ _ _ positive, whole]

-- Wherever the pages have come to, a page is offered what comes next.
theorem source_behind (going : work.complete = false) (earlier later : List (Occurrence Row))
    (split : rebuildUnits scalars aggregate keys bag = earlier ++ later)
    (cursor : CursorAt scalars aggregate keys work earlier.getLast?) (rawRows : Nat) :
    sourceFrom rawRows (effectiveMultiplicity (!aggregate.distinct.isEmpty) work) 0 (bagCandidates scalars keys bag.rows work rawRows) =
      later.take rawRows := by
  cases last : earlier.getLast? with
  | none =>
      rw [last] at cursor
      rw [List.getLast?_eq_none_iff.mp last, List.nil_append] at split
      rw [source_start scalars aggregate keys bag work going cursor, split]
  | some boundary =>
      rw [last] at cursor
      obtain ⟨front, ends⟩ := List.getLast?_eq_some_iff.mp last
      rw [ends, List.append_assoc] at split
      exact source_resumed scalars aggregate keys bag going split cursor rawRows

end Source

end Shiba.Aggregate
