import Shiba.Aggregate.RebuildExact

set_option autoImplicit false

namespace Shiba.Aggregate

open Shiba.Execution Lexicographic

structure AggregateSpec (Expr Value : Type) where
  groups : List (SortGroupExpr Expr)
  aggregates : List (AggregateExpr Expr Value)

-- A group's row: the grouping values it was created with, and what it published last.
structure GroupRow (Value Key : Type) where
  groupValues : List (Option Value)
  publishedPresent : Bool := false
  publishedKey : Option Key := none

inductive Decision where
  | unchanged
  | insert
  | delete
  | replace
deriving DecidableEq, Repr

structure GroupOutput (Value : Type) where
  present : Bool
  row : Option (List (Option Value))
  decision : Decision
deriving DecidableEq

section Output

variable {Expr Row Value Key : Type} [DecidableEq Key] (scalars : Scalars Expr Row Value) (canonicalRowKey : List (Option Value) → Key)

def decision (group : GroupRow Value Key) (present : Bool) (rowKey : Option Key) : Decision :=
  if group.publishedPresent = present && (!present || decide (group.publishedKey = rowKey)) then .unchanged
  else if !group.publishedPresent && present then .insert
  else if group.publishedPresent && !present then .delete
  else .replace

def desired (group : GroupRow Value Key) (present : Bool) (row : List (Option Value)) : GroupOutput Value :=
  if present then ⟨true, some row, decision group true (some (canonicalRowKey row))⟩ else ⟨false, none, decision group false none⟩

def present (spec : AggregateSpec Expr Value) (bag : GroupBag Row) : Bool := spec.groups.isEmpty || !bag.rows.isEmpty

-- DISTINCT ON (group_state_id) ... ORDER BY group_state_id, row_id
def representative (bag : GroupBag Row) : Option (BagRow Row) :=
  (sorted (fun left right => decide (left.rowId < right.rowId)) bag.rows).head?

def groupValuesOf (spec : AggregateSpec Expr Value) (row : Row) : List (Option Value) :=
  spec.groups.map fun key => scalars.value key.expr row

def finalValue (capability : AggregateCapability Value) (state : Option Value) : Option Value :=
  match capability.finalFunction with
  | none => state
  | some finalFunction => finalFunction state

-- The rows that PostgreSQL may hand to the aggregate, one after the other. Without
-- ORDER BY it takes them as it reads them, and of equal DISTINCT tuples, which it
-- sorts, any one.
def Feeds (aggregate : AggregateExpr Expr Value) (bag : GroupBag Row) (rows : List (BagRow Row)) : Prop :=
  let passing := (Fetch.copies BagRow.multiplicity bag.rows).filter (passes scalars aggregate)
  if aggregate.distinct.isEmpty then
    rows.Perm passing ∧ (aggregate.orderBy.isEmpty = false →
      rows.Pairwise fun first later => orderBefore BagRow.rowId (aggregate.orderBy.map (keyColumn scalars)) later first = false)
  else
    ∃ tuples : List (BagRow Row), tuples.Perm passing ∧
      (tuples.Pairwise fun first later => chain ((aggregate.distinct.map (keyColumn scalars)).map KeyColumn.precedes) later first = false) ∧
      rows = Fetch.firsts (sameTuple scalars aggregate) tuples

-- An aggregate of the set-oriented page, called over a bag.
def nativeValue (aggregate : AggregateExpr Expr Value) (rows : List (BagRow Row)) : Except Fault (Option Value) := do
  refuse (!aggregate.distinct.isEmpty && !aggregate.orderBy.isEmpty)
    "in an aggregate with DISTINCT, ORDER BY expressions must appear in argument list"
  return finalValue aggregate.capability (foldRows scalars aggregate rows).1

def groupPageOutput (spec : AggregateSpec Expr Value) (group : GroupRow Value Key) (bag : GroupBag Row)
    (feeds : Nat → List (BagRow Row)) : Except Fault (GroupOutput Value) := do
  let aggregates ← spec.aggregates.zipIdx.mapM fun aggregate => nativeValue scalars aggregate.1 (feeds aggregate.2)
  let groupValues := ((representative bag).map fun row => groupValuesOf scalars spec row.rowValue).getD []
  return desired canonicalRowKey group (present spec bag) (groupValues ++ aggregates)

-- aggregate_output_expression and the decision over it.
def emitOutput (spec : AggregateSpec Expr Value) (group : GroupRow Value Key) (bag : GroupBag Row)
    (works : Nat → WorkRow Value) : GroupOutput Value :=
  desired canonicalRowKey group (present spec bag)
    (group.groupValues ++ spec.aggregates.zipIdx.map fun aggregate =>
      finalValue aggregate.1.capability (works aggregate.2).transitionState)

end Output

section History

variable {Row : Type} [DecidableEq Row]

-- The bag's rows and the next row id, after one row's net weight.
def applyRow (state : List (BagRow Row) × Int) (change : Row × Int) : List (BagRow Row) × Int :=
  match state.1.find? fun row => decide (row.rowValue = change.1) with
  | some found =>
      let multiplicity := (found.multiplicity : Int) + change.2
      if multiplicity ≤ 0 then (state.1.filter fun row => decide (row.rowId ≠ found.rowId), state.2)
      else
        (state.1.map fun row => if row.rowId = found.rowId then { row with multiplicity := multiplicity.toNat } else row, state.2)
  | none => if change.2 ≤ 0 then state else (state.1 ++ [⟨state.2, change.1, change.2.toNat⟩], state.2 + 1)

def bagAfter (changes : List (Row × Int)) : List (BagRow Row) := (changes.foldl applyRow ([], 1)).1

end History

section Agreement

variable {Expr Row Value Key : Type} [DecidableEq Expr] [DecidableEq Key] (scalars : Scalars Expr Row Value)
  (canonicalRowKey : List (Option Value) → Key)

-- A work row that the pages of a rebuild completed.
def FullyRebuilt (aggregate : AggregateExpr Expr Value) (ordinal : Nat) (bag : GroupBag Row) (work : WorkRow Value) : Prop :=
  ∃ keys before started budgets count, aggregateEffectiveOrder ordinal aggregate = .ok keys ∧
    (∀ old, before = some old → old.complete = true) ∧ initializeWork aggregate before = some started ∧
    (∀ round, Settings (budgets round)) ∧
    Rounds.rounds (rebuildStep scalars aggregate keys bag) WorkRow.complete budgets count 0 started = .ok work ∧ work.complete = true

-- The rows that the pages of a rebuild transition, in their order.
def rebuildRows (aggregate : AggregateExpr Expr Value) (ordinal : Nat) (bag : GroupBag Row) : List (BagRow Row) :=
  match aggregateEffectiveOrder ordinal aggregate with
  | .ok keys => transitionedRows scalars aggregate (expandedRows scalars keys bag)
  | .error _ => []

theorem rebuilt_value {aggregate : AggregateExpr Expr Value} {ordinal : Nat} {bag : GroupBag Row} {work : WorkRow Value}
    (rebuilt : FullyRebuilt scalars aggregate ordinal bag work) :
    work.transitionState = (foldRows scalars aggregate (rebuildRows scalars aggregate ordinal bag)).1 := by
  obtain ⟨keys, before, started, budgets, count, accepted, finished, initialized, settings, ran, complete⟩ := rebuilt
  have folded := rebuild_final scalars aggregate keys bag ordinal accepted budgets settings finished initialized ran complete
  rw [rebuildRows, accepted]
  exact congrArg Prod.fst folded

-- Under ORDER BY, and without DISTINCT, PostgreSQL has no choice: the row id decides.
theorem ordered_feed {aggregate : AggregateExpr Expr Value} {ordinal : Nat} {bag : GroupBag Row} {rows : List (BagRow Row)}
    (accepted : ∃ keys, aggregateEffectiveOrder ordinal aggregate = .ok keys) (plain : aggregate.distinct.isEmpty = true)
    (ordered : aggregate.orderBy.isEmpty = false) (fed : Feeds scalars aggregate bag rows) :
    rows = rebuildRows scalars aggregate ordinal bag := by
  obtain ⟨keys, accepted⟩ := accepted
  have columns : (rebuildColumns scalars keys : List (KeyColumn (BagRow Row) Value)) = aggregate.orderBy.map (keyColumn scalars) := by
    have expressions := effective_expressions aggregate accepted
    rw [List.isEmpty_iff.mp plain, List.filter_nil, List.append_nil] at expressions
    rw [← expressions, List.map_map, rebuildColumns]
    rfl
  simp only [Feeds, plain, if_true] at fed
  obtain ⟨perm, sorted⟩ := fed
  have sorted := sorted ordered
  rw [← columns] at sorted
  rw [rebuildRows, accepted]
  simp only
  rw [transitionedRows, if_pos plain]
  have weak := order_weak BagRow.rowId (rebuildColumns scalars keys : List (KeyColumn (BagRow Row) Value))
  apply List.Perm.eq_of_pairwise _ sorted _ (perm.trans _)
  · intro first second one other forth back
    have first_member := Fetch.copies_mem _ (List.mem_of_mem_filter (perm.subset one))
    have second_member := Fetch.copies_mem _ (List.mem_of_mem_filter other)
    rw [ordered_mem] at second_member
    exact same_row bag first_member second_member (keys_equal_tied _ ((tied_iff _ _ _).mpr ⟨back, forth⟩))
  · apply List.Pairwise.filter
    apply Fetch.copies_pairwise
    · exact irreflexive weak
    · apply List.Pairwise.imp _ (ordered_strict scalars keys bag)
      intro first later before
      exact weak.asymmetric first later before
  · exact ((Fetch.copies_perm _ _ _ (sorted_perm bag.rows)).filter _).symm

omit [DecidableEq Expr] in
theorem natives_ok (aggregates : List (AggregateExpr Expr Value × Nat)) (feeds : Nat → List (BagRow Row)) (values : List (Option Value)) :
    (aggregates.mapM fun aggregate => nativeValue scalars aggregate.1 (feeds aggregate.2)) = .ok values ↔
      (∀ aggregate ∈ aggregates, aggregate.1.distinct.isEmpty || aggregate.1.orderBy.isEmpty) ∧
        values = aggregates.map fun aggregate =>
          finalValue aggregate.1.capability (foldRows scalars aggregate.1 (feeds aggregate.2)).1 := by
  induction aggregates generalizing values with
  | nil =>
      rw [List.mapM_nil]
      constructor
      · intro done
        obtain rfl := Except.ok.inj done
        exact ⟨fun _ wrong => absurd wrong List.not_mem_nil, rfl⟩
      · intro done
        rw [done.2]
        rfl
  | cons aggregate rest ih =>
      rw [List.mapM_cons, List.forall_mem_cons, List.map_cons]
      constructor
      · intro done
        obtain ⟨first, native, later⟩ := bind_ok_iff.mp done
        obtain ⟨others, natives, listed⟩ := bind_ok_iff.mp later
        obtain ⟨allowed, value⟩ := refuse_bind_ok.mp native
        obtain ⟨fine, same⟩ := (ih others).mp natives
        obtain rfl := Except.ok.inj value
        obtain rfl := Except.ok.inj listed
        rw [← same]
        refine ⟨⟨?_, fine⟩, rfl⟩
        cases empty : aggregate.1.distinct.isEmpty with
        | true => rfl
        | false =>
            rw [empty, Bool.not_false, Bool.true_and, Bool.not_eq_false'] at allowed
            rw [allowed, Bool.false_or]
      · intro done
        obtain ⟨⟨here, fine⟩, listed⟩ := done
        refine bind_ok_iff.mpr ⟨_, refuse_bind_ok.mpr ⟨?_, rfl⟩,
          bind_ok_iff.mpr ⟨_, (ih _).mpr ⟨fine, rfl⟩, ?_⟩⟩
        · rw [Bool.or_eq_true] at here
          rcases here with empty | empty
          · rw [empty, Bool.not_true, Bool.false_and]
          · rw [empty, Bool.not_true, Bool.and_false]
        · rw [listed]
          rfl

theorem desired_same (group : GroupRow Value Key) (isPresent : Bool) (one other : List (Option Value)) :
    desired canonicalRowKey group isPresent one = desired canonicalRowKey group isPresent other ↔ (isPresent = true → one = other) := by
  cases isPresent with
  | false => exact ⟨fun _ wrong => absurd wrong Bool.false_ne_true, fun _ => rfl⟩
  | true =>
      constructor
      · intro same _
        exact Option.some.inj (congrArg GroupOutput.row same)
      · intro same
        rw [same rfl]

variable (spec : AggregateSpec Expr Value) (group : GroupRow Value Key) (bag : GroupBag Row) (feeds : Nat → List (BagRow Row))
  (works : Nat → WorkRow Value)

def representativeValues : List (Option Value) :=
  ((representative bag).map fun row => groupValuesOf scalars spec row.rowValue).getD []

-- When the two paths agree: no aggregate has both DISTINCT and ORDER BY, the lowest
-- row id still shows the grouping values that the group was created with, and an
-- aggregate without ORDER BY does not tell PostgreSQL's order from that of the row ids.
structure Steady : Prop where
  sortable : ∀ aggregate ∈ spec.aggregates.zipIdx, aggregate.1.distinct.isEmpty || aggregate.1.orderBy.isEmpty
  stored : present spec bag = true → representativeValues scalars spec bag = group.groupValues
  unordered : present spec bag = true → ∀ aggregate ∈ spec.aggregates.zipIdx, aggregate.1.orderBy.isEmpty = true →
    finalValue aggregate.1.capability (foldRows scalars aggregate.1 (feeds aggregate.2)).1 =
      finalValue aggregate.1.capability (foldRows scalars aggregate.1 (rebuildRows scalars aggregate.1 (aggregate.2 + 1) bag)).1

omit [DecidableEq Key] in
-- A sum or a count takes its rows in any order.
theorem commuting_feed (aggregate : AggregateExpr Expr Value) (ordinal : Nat) (rows : List (BagRow Row))
    (commutes : ∀ state first second, transitionOnce aggregate (transitionOnce aggregate state first) second =
      transitionOnce aggregate (transitionOnce aggregate state second) first)
    (accepted : ∃ keys, aggregateEffectiveOrder ordinal aggregate = .ok keys) (plain : aggregate.distinct.isEmpty = true)
    (fed : Feeds scalars aggregate bag rows) :
    foldRows scalars aggregate rows = foldRows scalars aggregate (rebuildRows scalars aggregate ordinal bag) := by
  obtain ⟨keys, accepted⟩ := accepted
  simp only [Feeds, plain, if_true] at fed
  have same : rows.Perm (rebuildRows scalars aggregate ordinal bag) := by
    rw [rebuildRows, accepted]
    simp only
    rw [transitionedRows, if_pos plain]
    exact fed.1.trans ((Fetch.copies_perm _ _ _ (sorted_perm bag.rows)).filter _).symm
  apply List.Perm.foldl_eq' (same.map _)
  intro first _ second _ state
  exact commutes state first second

end Agreement

-- Integers with a display scale, equal when the integers are: 1.0 and 1.00.
theorem count_started (_strict : true = true) (wrong : some ((0, 0) : Int × Nat) = none) : 0 = 1 := by
  cases wrong

def countCapability : AggregateCapability (Int × Nat) where
  argumentCount := 0
  transitionFunction := fun state _ => state.map fun count => (count.1 + 1, count.2)
  transitionIsStrict := true
  initialLiteral := some (0, 0)
  finalFunction := none
  started := count_started

def scaledScalars : Scalars Unit (Int × Nat) (Int × Nat) where
  value := fun _ row => some row
  condition := fun _ _ => none
  equality := fun _ left right => decide (left.1 = right.1)
  resolveBtree := fun key => ⟨fun left right => decide (left.1 < right.1), fun left right => decide (left.1 = right.1), key.nullsFirst,
    on_weak Prod.fst _ less_weak, fun left right => equal_tied left.1 right.1⟩
  resolvedEquality := fun _ => rfl
  resolvedNulls := fun _ => rfl
  effectRowBytes := fun _ => 8

def scaledCounts : AggregateSpec Unit (Int × Nat) := ⟨[⟨(), ⟨1700, -1, 0, true⟩, 1752, 1754, false⟩], [⟨countCapability, [], [], none, [], rfl⟩]⟩

-- 1.0 was inserted and counted; then 1.00 was inserted and 1.0 removed.
def scaledChanges : List ((Int × Nat) × Int) := [((1, 1), 1), ((1, 2), 1), ((1, 1), -1)]

theorem scaled_distinct : ((bagAfter scaledChanges).map BagRow.rowId).Nodup := by decide

theorem scaled_positive : ∀ row ∈ bagAfter scaledChanges, 0 < row.multiplicity := by decide

def scaledBag : GroupBag (Int × Nat) := ⟨bagAfter scaledChanges, scaled_distinct, scaled_positive⟩

def scaledGroup : GroupRow (Int × Nat) (List (Option (Int × Nat))) :=
  ⟨groupValuesOf scaledScalars scaledCounts (1, 1), true, some [some (1, 1), some (1, 0)]⟩

def scaledWork : WorkRow (Int × Nat) :=
  { transitionState := some (1, 0), noTransValue := false, hasCursor := true, cursorRowId := some 2, complete := true }

theorem scaled_fed : ∀ aggregate ∈ scaledCounts.aggregates.zipIdx, Feeds scaledScalars aggregate.1 scaledBag scaledBag.rows := by
  intro aggregate member
  obtain rfl := List.mem_singleton.mp member
  refine ⟨List.Perm.refl _, ?_⟩
  intro wrong
  cases wrong

theorem scaled_rebuilt : ∀ aggregate ∈ scaledCounts.aggregates.zipIdx,
    FullyRebuilt scaledScalars aggregate.1 (aggregate.2 + 1) scaledBag scaledWork := by
  intro aggregate member
  obtain rfl := List.mem_singleton.mp member
  refine ⟨[], none, ⟨some (0, 0), false, false, none, [], none, false, false, false, []⟩, fun _ => oneRow, 1, rfl, ?_, rfl,
    fun _ => one_row_settings, rfl, rfl⟩
  intro old wrong
  cases wrong

end Shiba.Aggregate
