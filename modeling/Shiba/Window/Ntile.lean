import Shiba.Window.Pages
import Shiba.Execution.Bigint

set_option autoImplicit false

namespace Shiba.Window

open Shiba.Execution Budget

-- PostgreSQL's window_ntile: its context in partition-local memory, and a call for one row.
structure NtileContext where
  ntile : Nat := 0
  rowsPerBucket : Nat := 0
  boundary : Nat := 0
  remainder : Nat := 0
deriving DecidableEq, Repr

def NtileContext.advance (context : NtileContext) : NtileContext :=
  if context.boundary < context.rowsPerBucket + 1 then
    if context.remainder ≠ 0 ∧ context.ntile = context.remainder then
      ⟨context.ntile + 1, 1, context.boundary - 1, 0⟩
    else ⟨context.ntile + 1, 1, context.boundary, context.remainder⟩
  else { context with rowsPerBucket := context.rowsPerBucket + 1 }

def NtileContext.first (total buckets : Nat) : NtileContext :=
  if total / buckets = 0 then ⟨1, 0, 1, 0⟩
  else if total % buckets = 0 then ⟨1, 0, total / buckets, 0⟩
  else ⟨1, 0, total / buckets + 1, total % buckets⟩

def windowNtile (total : Nat) (argument : Option Int) (context : NtileContext) : Except Fault (Option Int × NtileContext) :=
  if context.ntile = 0 then
    match argument with
    | none => .ok (none, context)
    | some buckets =>
        if buckets ≤ 0 then .error (.failed "argument of ntile must be greater than zero")
        else
          let after := (NtileContext.first total buckets.toNat).advance
          .ok (some after.ntile, after)
  else .ok (some context.advance.ntile, context.advance)

def postgresNtile (total : Nat) : NtileContext → List (Option Int) → Except Fault (List (Option Int))
  | _, [] => .ok []
  | context, argument :: rest => do
      let (value, context) ← windowNtile total argument context
      let values ← postgresNtile total context rest
      return value :: values

-- The durable state row of a partition.
structure NtileState where
  bucketCount : Option Int := none
  firstOrdinal : Option Int := none
deriving DecidableEq, Repr

-- The expression in bigint arithmetic.
def windowNtileValue (ordinal totalRows : Int) (buckets firstOrdinal : Option Int) : Except Fault (Option Int) :=
  match buckets with
  | none => .ok none
  | some buckets =>
      if buckets ≤ 0 then .error (.failed "division by zero")
      else
        match firstOrdinal with
        | none => .ok none
        | some firstOrdinal => do
            let activeOrdinal ← bigint ((← bigint (ordinal - firstOrdinal)) + 1)
            let larger ← bigint ((← bigintDiv totalRows buckets) + 1)
            let leading ← bigint (larger * (← bigintMod totalRows buckets))
            if activeOrdinal ≤ leading then do
              let value ← bigint ((← bigintDiv (← bigint (activeOrdinal - 1)) larger) + 1)
              return some value
            else do
              let behind ← bigint ((← bigint (activeOrdinal - leading)) - 1)
              let value ← bigint ((← bigint ((← bigintMod totalRows buckets) +
                (← bigintDiv behind (← bigintDiv totalRows buckets)))) + 1)
              return some value

-- The cast of the value to the function's integer type.
def int4Max : Nat := 2147483647

def toInteger (value : Option Int) : Except Fault (Option Int) :=
  if value.any (fun value => decide ((int4Max : Int) < value)) then .error (.failed "integer out of range") else .ok value

-- A row of the ordered partition, with its bucket argument.
structure NtileRow where
  ordinal : Int
  argument : Option Int
  rowBytes : Nat
deriving DecidableEq, Repr

structure NtilePartition where
  rows : List NtileRow
  ordinals : rows.map NtileRow.ordinal = (List.range rows.length).map fun index : Nat => (index : Int) + 1
  counted : rows.length ≤ bigintMax
  integers : ∀ row ∈ rows, ∀ buckets, row.argument = some buckets → buckets ≤ int4Max

-- One step of the recursive fold.
def NtileState.next (state : NtileState) (row : NtileRow) : NtileState :=
  let bucketCount := match state.bucketCount with
    | some buckets => some buckets
    | none => row.argument
  { bucketCount := bucketCount
    firstOrdinal := match state.firstOrdinal with
      | some ordinal => some ordinal
      | none => if bucketCount.isSome then some row.ordinal else none }

-- The fold over a page, and the values of its rows.
def foldNtile (total : Nat) : NtileState → List NtileRow → Except Fault (List (Int × Option Int) × NtileState)
  | state, [] => .ok ([], state)
  | state, row :: rest => do
      let next := state.next row
      let value ← windowNtileValue row.ordinal total next.bucketCount next.firstOrdinal
      let value ← toInteger value
      let (values, final) ← foldNtile total next rest
      return ((row.ordinal, value) :: values, final)

-- The state row of the partition, and the function column that is filled so far.
structure NtileTables where
  state : Option NtileState
  values : List (Int × Option Int)
deriving DecidableEq, Repr

def rowsBytes (rows : List NtileRow) : Nat := (rows.map NtileRow.rowBytes).sum

-- The page of ordered rows behind the cursor: one row more is read than taken.
def evaluationSource (partition : NtilePartition) (cursor : WindowCursor) (maxRows : Nat) : List NtileRow :=
  (partition.rows.filter fun row => cursor.rowId.all fun last => decide (last < row.ordinal)).take (maxRows + 1)

def evaluationPage (budget : WorkBudget) (source : List NtileRow) : List NtileRow :=
  withinBudget (fun page => decide (rowsBytes page ≤ budget.maxInputBytes)) (source.take budget.maxInputRows)

-- run_window_evaluate for ntile.
def runWindowEvaluate (partition : NtilePartition) (tables : NtileTables) (cursor : WindowCursor) (budget : WorkBudget) :
    Except Fault (WindowPage × NtileTables) := do
  let fresh := cursor.rowId.isNone
  refuse (fresh && tables.state.isSome) "duplicate key value violates unique constraint"
  let state := if fresh then some {} else tables.state
  windowI64Budget budget.maxInputRows "Window evaluation row budget"
  refuse (decide (budget.maxInputRows = bigintMax)) "Window evaluation row budget overflow"
  windowI64Budget budget.maxInputBytes "Window evaluation byte budget"
  let source := evaluationSource partition cursor budget.maxInputRows
  let selected := evaluationPage budget source
  refuse (cursor.rowId.any fun last => !partition.rows.any fun row => decide (row.ordinal = last))
    "Window evaluation returned cursor_mismatch"
  match state with
  | none => .error (.failed "Window evaluation returned missing_ntile_state")
  | some state => do
      let (values, final) ← foldNtile partition.rows.length state selected
      let complete := decide (source.length = selected.length)
      let changed := selected.length + if selected.isEmpty then 0 else 1
      let page := windowInternalPage selected.length (rowsBytes selected)
        (changed + (if fresh then 1 else 0) + if complete then 1 else 0) (selected.getLast?.map NtileRow.ordinal) complete
      return (page, ⟨if complete then none else some final, tables.values ++ values⟩)

-- The evaluation of one function: its cursor, its tables, and whether it is done.
structure EvaluateState where
  cursor : WindowCursor := {}
  tables : NtileTables
  complete : Bool := false
deriving DecidableEq, Repr

-- One step: the primitive, and the machine's check of its page.
def evaluateStep (partition : NtilePartition) (state : EvaluateState) (budget : WorkBudget) : Except Fault EvaluateState := do
  let (page, tables) ← runWindowEvaluate partition state.tables state.cursor budget
  page.validate state.cursor budget false
  return ⟨⟨page.lastRowId⟩, tables, page.complete⟩

end Shiba.Window
