import Shiba.Execution.Keyset
import Shiba.TopN.Machine
import Shiba.Planner.Model

set_option autoImplicit false

namespace Shiba.Aggregate

open Shiba.Execution

structure SortGroupExpr (Expr : Type) where
  expr : Expr
  type : Planner.SlotType
  equalityOperatorOid : Oid
  sortOperatorOid : Oid
  nullsFirst : Bool
deriving DecidableEq

-- What the catalog knows of an aggregate function. Without an initial value its
-- strict transition takes one argument, of the state's type.
structure AggregateCapability (Value : Type) where
  argumentCount : Nat
  transitionFunction : Option Value → List (Option Value) → Option Value
  transitionIsStrict : Bool
  initialLiteral : Option Value
  finalFunction : Option (Option Value → Option Value)
  started : transitionIsStrict = true → initialLiteral = none → argumentCount = 1

structure AggregateExpr (Expr Value : Type) where
  capability : AggregateCapability Value
  args : List Expr
  distinct : List (SortGroupExpr Expr)
  filter : Option Expr
  orderBy : List (SortGroupExpr Expr)
  counted : args.length = capability.argumentCount

-- How compiled expressions evaluate, and what the operators of a sort key resolve to.
structure Scalars (Expr Row Value : Type) where
  value : Expr → Row → Option Value
  condition : Expr → Row → Option Bool
  equality : Oid → Value → Value → Bool
  resolveBtree : SortGroupExpr Expr → BtreeOrder Value
  resolvedEquality : ∀ key, (resolveBtree key).equalityOperator = equality key.equalityOperatorOid
  resolvedNulls : ∀ key, (resolveBtree key).nullsFirst = key.nullsFirst
  effectRowBytes : Row → Nat

-- A row of the bag. Its order and distinct columns are the keys' values of row_value.
structure BagRow (Row : Type) where
  rowId : Int
  rowValue : Row
  multiplicity : Nat
deriving DecidableEq, Repr

structure GroupBag (Row : Type) where
  rows : List (BagRow Row)
  distinct : (rows.map BagRow.rowId).Nodup
  positive : ∀ row ∈ rows, 0 < row.multiplicity

-- A group's row of one aggregate's work relation.
structure WorkRow (Value : Type) where
  transitionState : Option Value
  noTransValue : Bool
  hasCursor : Bool := false
  cursorRowId : Option Int := none
  cursorOrder : List (Option Value) := []
  remainingMultiplicity : Option Nat := none
  complete : Bool := false
  hasDistinctCursor : Bool := false
  distinctTransitioned : Bool := false
  cursorDistinct : List (Option Value) := []
deriving DecidableEq, Repr

structure AggregateOrderKey (Expr : Type) where
  expression : SortGroupExpr Expr
  column : String
deriving DecidableEq

section Order

variable {Expr Value : Type} [DecidableEq Expr]

def aggregateSameValue (left right : SortGroupExpr Expr) : Bool :=
  decide (left.expr = right.expr) && decide (left.type = right.type) &&
    decide (left.equalityOperatorOid = right.equalityOperatorOid)

def aggregateEffectiveOrder (aggregateOrdinal : Nat) (aggregate : AggregateExpr Expr Value) :
    Except Fault (List (AggregateOrderKey Expr)) := do
  refuse (!aggregate.distinct.isEmpty &&
      aggregate.orderBy.any fun order => !aggregate.distinct.any fun distinct => aggregateSameValue order distinct)
    "Aggregate DISTINCT ordering is not covered by its DISTINCT tuple"
  return (aggregate.orderBy.zipIdx.map fun key =>
      (⟨key.1, s!"agg_{aggregateOrdinal}_order_{key.2 + 1}"⟩ : AggregateOrderKey Expr)) ++
    (aggregate.distinct.zipIdx.filter fun key =>
      !aggregate.orderBy.any fun order => aggregateSameValue order key.1).map fun key =>
        ⟨key.1, s!"agg_{aggregateOrdinal}_distinct_{key.2 + 1}"⟩

end Order

section Page

variable {Expr Row Value : Type} (scalars : Scalars Expr Row Value)

def keyColumn (key : SortGroupExpr Expr) : KeyColumn (BagRow Row) Value :=
  { scalars.resolveBtree key with column := fun row => scalars.value key.expr row.rowValue }

-- The bag row and the work row as the range predicates see them.
def rangeRows (columns : List (KeyColumn (BagRow Row) Value)) (work : WorkRow Value) (row : BagRow Row) :
    String → KeyValues Value :=
  fun relation =>
    if relation = "work" then ⟨work.cursorOrder, work.cursorRowId⟩ else (keyRow BagRow.rowId columns row).values

def candidateRanges (keys : List (AggregateOrderKey Expr)) (work : WorkRow Value) : List (BagRow Row → Bool) :=
  let columns := keys.map fun key => keyColumn scalars key.expression
  (fun _ => !work.hasCursor) ::
  (fun row => work.remainingMultiplicity.isSome && decide (work.cursorRowId = some row.rowId)) ::
  (aggregateRebuildOrder (keys.map fun key => (scalars.resolveBtree key.expression, key.column))).map fun range row =>
    work.hasCursor && ThreeValued.holds (KeyTest.value (rangeRows columns work row)) range

def effectiveMultiplicity (tuples : Bool) (work : WorkRow Value) (row : BagRow Row) : Nat :=
  if tuples then 1
  else
    match work.remainingMultiplicity with
    | some remaining => if work.cursorRowId = some row.rowId then remaining else row.multiplicity
    | none => row.multiplicity

def bagCandidates (keys : List (AggregateOrderKey Expr)) (bag : List (BagRow Row)) (work : WorkRow Value) (rawRows : Nat) :
    List (BagRow Row) :=
  let columns := keys.map fun key => keyColumn scalars key.expression
  (orderBy BagRow.rowId columns ((candidateRanges scalars keys work).flatMap fun range =>
    (orderBy BagRow.rowId columns (bag.filter fun row => !work.complete && range row)).take rawRows)).take rawRows

-- One copy of a row, and how many copies follow it.
structure Occurrence (Row : Type) where
  row : BagRow Row
  remainingAfter : Nat
deriving DecidableEq

-- ranked and source: generate_series up to what LIMIT leaves behind the rows before.
def sourceFrom (rawRows : Nat) (effective : BagRow Row → Nat) : Nat → List (BagRow Row) → List (Occurrence Row)
  | _, [] => []
  | preceding, row :: rest =>
      (if preceding < rawRows then
        (List.range (min (effective row) (rawRows - preceding))).map fun index =>
          ⟨row, effective row - (index + 1)⟩
      else []) ++ sourceFrom rawRows effective (preceding + effective row) rest

def occurrenceBytes (page : List (Occurrence Row)) : Nat :=
  (page.map fun occurrence => scalars.effectRowBytes occurrence.row.rowValue).sum

def selectedPage (maxRows maxBytes : Nat) (source : List (Occurrence Row)) : List (Occurrence Row) :=
  Budget.withinBudget (fun page => decide (occurrenceBytes scalars page ≤ maxBytes)) (source.take maxRows)

-- A selected copy: whether its transition is applied, and whether its tuple has been.
structure Prepared (Row : Type) where
  occurrence : Occurrence Row
  applyTransition : Bool
  tupleTransitioned : Bool

structure Segmented (Row : Type) where
  occurrence : Occurrence Row
  passesFilter : Bool
  tupleOrdinal : Nat

variable (aggregate : AggregateExpr Expr Value)

-- coalesce((filter),false)
def passes (row : BagRow Row) : Bool :=
  aggregate.filter.all fun filter => (scalars.condition filter row.rowValue).getD false

def distinctColumns (row : BagRow Row) : List (Option Value) :=
  aggregate.distinct.map fun key => scalars.value key.expr row.rowValue

def tupleEqual (left right : List (Option Value)) : Bool :=
  (aggregate.distinct.zip (left.zip right)).all fun pair => (scalars.resolveBtree pair.1).equals pair.2.1 pair.2.2

def startsTuple (work : WorkRow Value) (previous : Option (BagRow Row)) (row : BagRow Row) : Bool :=
  match previous with
  | none => !(work.hasDistinctCursor && tupleEqual scalars aggregate (distinctColumns scalars aggregate row) work.cursorDistinct)
  | some previous => !tupleEqual scalars aggregate (distinctColumns scalars aggregate row) (distinctColumns scalars aggregate previous)

-- evaluated, boundaries and segmented: the tuples of the page are numbered from the one
-- that the page before ended in, which has the ordinal zero.
def segmented (work : WorkRow Value) : Option (BagRow Row) → Nat → List (Occurrence Row) → List (Segmented Row)
  | _, _, [] => []
  | previous, ordinal, occurrence :: rest =>
      let ordinal := ordinal + (startsTuple scalars aggregate work previous occurrence.row).toNat
      ⟨occurrence, passes scalars aggregate occurrence.row, ordinal⟩ :: segmented work (some occurrence.row) ordinal rest

def preparedFrom (persistedTransitioned : Bool) : List (Segmented Row) → List (Segmented Row) → List (Prepared Row)
  | _, [] => []
  | before, current :: rest =>
      let tuple := before.filter fun other => decide (other.tupleOrdinal = current.tupleOrdinal)
      let previouslyTransitioned := decide (current.tupleOrdinal = 0) && persistedTransitioned
      let passingBefore := tuple.countP Segmented.passesFilter
      ⟨current.occurrence, current.passesFilter && !previouslyTransitioned && decide (passingBefore = 0),
        previouslyTransitioned || (tuple ++ [current]).any Segmented.passesFilter⟩ ::
        preparedFrom persistedTransitioned (before ++ [current]) rest

def prepared (work : WorkRow Value) (selected : List (Occurrence Row)) : List (Prepared Row) :=
  if aggregate.distinct.isEmpty then
    selected.map fun occurrence => ⟨occurrence, passes scalars aggregate occurrence.row, false⟩
  else
    preparedFrom work.distinctTransitioned [] (segmented scalars aggregate work none 0 selected)

def argumentsOf (row : BagRow Row) : List (Option Value) := aggregate.args.map fun argument => scalars.value argument row.rowValue

-- next_state and next_no_trans
def nextState (state : Option Value × Bool) (item : Prepared Row) : Option Value × Bool :=
  let arguments := argumentsOf scalars aggregate item.occurrence.row
  let argumentsNonnull := arguments.all Option.isSome
  if aggregate.capability.transitionIsStrict then
    (if item.applyTransition then
        if argumentsNonnull then
          if aggregate.capability.initialLiteral.isNone && state.2 then arguments.head?.join
          else if state.1.isNone then state.1
          else aggregate.capability.transitionFunction state.1 arguments
        else state.1
      else state.1,
      if item.applyTransition && argumentsNonnull then false else state.2)
  else
    (if item.applyTransition then aggregate.capability.transitionFunction state.1 arguments else state.1, false)

structure AggregateRebuildPrimitive where
  page : PageFacts
  stateRows : Nat
deriving DecidableEq, Repr

-- The update: the fold's state, and the cursor on the last row that was selected.
def updatedWork (columns : List (KeyColumn (BagRow Row) Value)) (items : List (Prepared Row)) (complete : Bool)
    (work : WorkRow Value) : WorkRow Value :=
  let folded := items.foldl (nextState scalars aggregate) (work.transitionState, work.noTransValue)
  let folded := { work with transitionState := folded.1, noTransValue := folded.2, complete := complete }
  match items.getLast? with
  | none => folded
  | some last =>
      let row := last.occurrence.row
      let moved := { folded with
        hasCursor := true
        cursorRowId := some row.rowId
        cursorOrder := columns.map fun key => key.column row
        remainingMultiplicity :=
          if aggregate.distinct.isEmpty && decide (0 < last.occurrence.remainingAfter) then some last.occurrence.remainingAfter
          else none }
      if aggregate.distinct.isEmpty then moved
      else
        { moved with
          hasDistinctCursor := true
          distinctTransitioned := last.tupleTransitioned
          cursorDistinct := distinctColumns scalars aggregate row }

def aggregateRebuildPage (keys : List (AggregateOrderKey Expr)) (bag : List (BagRow Row)) (work : Option (WorkRow Value))
    (budget : WorkBudget) : Except Fault (AggregateRebuildPrimitive × WorkRow Value) := do
  refuse (aggregate.capability.transitionIsStrict && aggregate.capability.initialLiteral.isNone && aggregate.args.isEmpty)
    "strict Aggregate with NULL initial state has no argument"
  refuse (decide (bigintMax < budget.maxInputRows)) "Aggregate rebuild row budget exceeds bigint"
  refuse (decide (budget.maxInputRows = bigintMax)) "Aggregate rebuild row budget overflow"
  refuse (decide (bigintMax < budget.maxInputBytes)) "Aggregate rebuild byte budget exceeds bigint"
  match work with
  | none => .error (.failed "Aggregate rebuild returned missing_work")
  | some work =>
      let columns := keys.map fun key => keyColumn scalars key.expression
      let rawRows := budget.maxInputRows + 1
      let source := sourceFrom rawRows (effectiveMultiplicity (!aggregate.distinct.isEmpty) work) 0
        (bagCandidates scalars keys bag work rawRows)
      let selected := selectedPage scalars budget.maxInputRows budget.maxInputBytes source
      let complete := decide (source.length = selected.length)
      return (⟨⟨{ inputRows := selected.length, inputBytes := occurrenceBytes scalars selected },
        selected.getLast?.map fun occurrence => occurrence.row.rowId, complete⟩, 1⟩,
        updatedWork scalars aggregate columns (prepared scalars aggregate work selected) complete work)

-- The insert before a page: a fresh work row, also over a completed one.
def initializeWork (work : Option (WorkRow Value)) : Option (WorkRow Value) :=
  let initialNoTrans := aggregate.capability.transitionIsStrict && aggregate.capability.initialLiteral.isNone
  match work with
  | none => some { transitionState := aggregate.capability.initialLiteral, noTransValue := initialNoTrans }
  | some work =>
      if work.complete then
        some { work with
          transitionState := aggregate.capability.initialLiteral
          noTransValue := initialNoTrans
          hasCursor := false
          cursorRowId := none
          remainingMultiplicity := none
          complete := false
          hasDistinctCursor := false
          distinctTransitioned := false }
      else some work

end Page

end Shiba.Aggregate
