import Shiba.Window.Pages
import Shiba.Window.Frames

set_option autoImplicit false

namespace Shiba.Window

open Shiba.Execution Spans

-- An aggregate of the plan: its capability, its filter and arguments, and how
-- many bytes one finalized output takes.
structure FoldFunction (Row Value : Type) where
  transitionIsStrict : Bool
  initialLiteral : Option Value
  filter : Row → Option Bool
  arguments : Row → List (Option Value)
  transition : Option Value → List (Option Value) → Option Value
  finalFunction : Option Value → Option Value
  isLastFunction : Bool
  workBytes : Int → Option Value → Nat
  started : transitionIsStrict = true → initialLiteral = none → ∀ row, arguments row ≠ []
  positive : ∀ ordinal value, 0 < workBytes ordinal value
  sized : ∀ ordinal value, workBytes ordinal value ≤ bigintMax

structure FoldRow (Row : Type) where
  ordinal : Int
  value : Row
  rowBytes : Nat

-- A dirty partition: its ordered rows, and the frame of each of them.
structure FoldPartition (Row : Type) where
  rows : List (FoldRow Row)
  frames : List FrameRow
  ordinals : rows.map FoldRow.ordinal = (List.range rows.length).map fun index : Nat => (index : Int) + 1
  counted : rows.length ≤ bigintMax
  sized : ∀ row ∈ rows, 0 < row.rowBytes ∧ row.rowBytes ≤ bigintMax
  framed : frames.length = rows.length
  ordered : ∀ frame ∈ frames, Ordered frame.spans

-- The accumulator relation of one function is a singleton.
structure Accumulator (Value : Type) where
  outputOrdinal : Int
  stateValue : Option Value
  noTransValue : Bool

-- The accumulator, and the function column as far as it is filled.
structure FoldTables (Value : Type) where
  accumulator : Option (Accumulator Value)
  values : List (Int × Option Value)

structure WindowFoldPrimitive where
  processedRows : Nat
  processedBytes : Nat
  lastFrameOrdinal : Option Int
  complete : Bool
  stateRows : Nat
deriving DecidableEq, Repr

structure WindowFinalizePrimitive where
  applied : Bool
  workBytes : Nat
  stateRows : Nat
deriving DecidableEq, Repr

variable {Row Value : Type}

-- One step of the recursive fold: next_state and next_no_trans.
def FoldFunction.advance (function : FoldFunction Row Value) (state : Option Value × Bool) (row : Row) : Option Value × Bool :=
  let isTrue := function.filter row == some true
  let argumentsNonnull := (function.arguments row).all Option.isSome
  if function.transitionIsStrict then
    if isTrue && argumentsNonnull then
      if function.initialLiteral.isNone && state.2 then ((function.arguments row).head?.join, false)
      else if state.1.isNone then (state.1, false)
      else (function.transition state.1 (function.arguments row), false)
    else state
  else if isTrue then (function.transition state.1 (function.arguments row), false)
  else (state.1, false)

def FoldFunction.start (function : FoldFunction Row Value) : Option Value × Bool :=
  (function.initialLiteral, function.transitionIsStrict && function.initialLiteral.isNone)

def frameAt (partition : FoldPartition Row) (outputOrdinal : Int) : Option FrameRow :=
  if outputOrdinal < 1 then none else partition.frames[(outputOrdinal - 1).toNat]?

-- interval_1, interval_2 and interval_3
def intervalRows (partition : FoldPartition Row) (span : Option Span) (lastFrameOrdinal : Option Int) (rawRows : Nat) :
    List (FoldRow Row) :=
  (partition.rows.filter fun row =>
    (span.any fun span => decide (span.first ≤ row.ordinal) && decide (row.ordinal ≤ span.last)) &&
      lastFrameOrdinal.all fun last => decide (last < row.ordinal)).take rawRows

def foldSource (partition : FoldPartition Row) (frame : FrameRow) (lastFrameOrdinal : Option Int) (rawRows : Nat) :
    List (FoldRow Row) :=
  ((intervalRows partition frame.one lastFrameOrdinal rawRows ++ intervalRows partition frame.two lastFrameOrdinal rawRows ++
    intervalRows partition frame.three lastFrameOrdinal rawRows).insertionSort fun first second =>
      first.ordinal ≤ second.ordinal).take rawRows

def foldBytes (rows : List (FoldRow Row)) : Nat := (rows.map FoldRow.rowBytes).sum

-- An oversized first row is selected only where it is allowed.
def foldSelected (allowOversizedRow : Bool) (maxRows maxBytes : Nat) (source : List (FoldRow Row)) : List (FoldRow Row) :=
  (source.zipIdx.filter fun item => decide (item.2 + 1 ≤ maxRows) &&
    ((allowOversizedRow && decide (item.2 = 0)) || decide (foldBytes (source.take (item.2 + 1)) ≤ maxBytes))).map Prod.fst

def accumulatorOf (tables : FoldTables Value) (outputOrdinal : Int) : Option (Accumulator Value) :=
  tables.accumulator.filter fun accumulator => decide (accumulator.outputOrdinal = outputOrdinal)

def windowFoldPage (function : FoldFunction Row Value) (partition : FoldPartition Row) (tables : FoldTables Value)
    (outputOrdinal : Int) (lastFrameOrdinal : Option Int) (maxRows maxBytes : Nat) (allowOversizedRow : Bool) :
    Except Fault (WindowFoldPrimitive × FoldTables Value) := do
  windowI64Budget maxRows "Window fold row budget"
  refuse (decide (maxRows = bigintMax)) "Window fold row budget overflow"
  windowI64Budget maxBytes "Window fold byte budget"
  match frameAt partition outputOrdinal with
  | none => .error (.failed "Window aggregate fold returned missing_frame")
  | some frame =>
      match accumulatorOf tables outputOrdinal with
      | none => .error (.failed "Window aggregate fold returned missing_accumulator")
      | some accumulator =>
          let source := foldSource partition frame lastFrameOrdinal (maxRows + 1)
          let selected := foldSelected allowOversizedRow maxRows maxBytes source
          let (stateValue, noTransValue) :=
            (selected.map FoldRow.value).foldl function.advance (accumulator.stateValue, accumulator.noTransValue)
          return (⟨selected.length, foldBytes selected, selected.getLast?.map FoldRow.ordinal,
              decide (source.length = selected.length), if selected.isEmpty then 0 else 1⟩,
            if selected.isEmpty then tables
            else { tables with accumulator := some ⟨outputOrdinal, stateValue, noTransValue⟩ })

def validateWindowFinalizeDecision (applied : Bool) (workBytes remainingRows remainingBytes : Nat) (allowOversizedItem : Bool) :
    Except Fault Unit :=
  if applied then do
    refuse (decide (remainingRows = 0)) "Window aggregate finalization exceeded its remaining rows"
    refuse (decide (remainingBytes < workBytes) && !allowOversizedItem) "Window aggregate finalization exceeded its remaining bytes"
  else
    refuse (decide (0 < remainingRows) && (decide (workBytes ≤ remainingBytes) || allowOversizedItem))
      "Window aggregate finalization blocked despite available budget"

def windowFinalizeFold (function : FoldFunction Row Value) (partition : FoldPartition Row) (tables : FoldTables Value)
    (outputOrdinal : Int) (remainingRows remainingBytes : Nat) (allowOversizedItem : Bool) :
    Except Fault (WindowFinalizePrimitive × FoldTables Value) := do
  windowI64Budget remainingRows "Window finalize row budget"
  windowI64Budget remainingBytes "Window finalize byte budget"
  match accumulatorOf tables outputOrdinal with
  | none => .error (.failed "Window aggregate finalization returned missing_accumulator")
  | some accumulator =>
      let present := partition.rows.any fun row => decide (row.ordinal = outputOrdinal)
      refuse (function.isLastFunction && !present) "Window aggregate finalization returned missing_output"
      let value := function.finalFunction accumulator.stateValue
      let workBytes := function.workBytes outputOrdinal value
      let permitted := decide (1 ≤ remainingRows) && (decide (workBytes ≤ remainingBytes) || allowOversizedItem)
      -- The function column, the candidate of the last function, and the accumulator.
      let stateRows := if permitted then (if present then 1 else 0) + (if function.isLastFunction then 1 else 0) + 1 else 0
      refuse (decide (stateRows ≠ if permitted then (if function.isLastFunction then 3 else 2) else 0))
        "Window aggregate finalization mutation count is inconsistent"
      refuse (decide (workBytes = 0)) "Window aggregate finalization returned no materialized bytes"
      validateWindowFinalizeDecision permitted workBytes remainingRows remainingBytes allowOversizedItem
      return (⟨permitted, workBytes, stateRows⟩,
        if permitted then ⟨none, tables.values ++ [(outputOrdinal, value)]⟩ else tables)

-- What the loop of one call has done so far.
structure FoldLoop (Value : Type) where
  processedRows : Nat := 0
  processedBytes : Nat := 0
  stateRows : Nat := 0
  workItems : Nat := 0
  nextCursor : Option WindowFoldCursor
  tables : FoldTables Value

def FoldLoop.page (loop : FoldLoop Value) : WindowFoldPage :=
  ⟨{ usage := { inputRows := loop.processedRows, inputBytes := loop.processedBytes }, stateRows := loop.stateRows },
    loop.nextCursor, loop.workItems⟩

-- A fold's accumulator is new where the cursor has not begun its output.
def openAccumulator (function : FoldFunction Row Value) (tables : FoldTables Value) (current : WindowFoldCursor) :
    Except Fault (Bool × FoldTables Value) :=
  if current.lastFrameOrdinal.isNone && !current.readyToFinalize then do
    refuse tables.accumulator.isSome "duplicate key value violates unique constraint"
    return (true, { tables with accumulator := some ⟨current.outputOrdinal, function.start.1, function.start.2⟩ })
  else do
    refuse (accumulatorOf tables current.outputOrdinal).isNone "Window aggregate fold lost its accumulator"
    return (false, tables)

-- The rows of the frame that the call has room for. A fold that is incomplete
-- ends the call; `none` says so.
def foldFrame (function : FoldFunction Row Value) (partition : FoldPartition Row) (budget : WorkBudget) (current : WindowFoldCursor)
    (initialized : Bool) (loop : FoldLoop Value) : Except Fault (FoldLoop Value × Bool) := do
  if current.readyToFinalize then return (loop, true)
  else do
    let remainingRows := budget.maxInputRows - loop.processedRows
    let remainingBytes := budget.maxInputBytes - loop.processedBytes
    let allowOversizedRow := decide (loop.processedRows = 0)
    let (folded, tables) ← windowFoldPage function partition loop.tables current.outputOrdinal current.lastFrameOrdinal remainingRows
      remainingBytes allowOversizedRow
    refuse (decide (remainingRows < folded.processedRows) ||
        (decide (remainingBytes < folded.processedBytes) && !(allowOversizedRow && decide (folded.processedRows = 1))))
      "Window aggregate fold exceeded its remaining step budget"
    let loop : FoldLoop Value := { loop with
      processedRows := loop.processedRows + folded.processedRows
      processedBytes := loop.processedBytes + folded.processedBytes
      stateRows := loop.stateRows + folded.stateRows
      tables := tables }
    if folded.complete then
      return ({ loop with
        nextCursor := some ⟨current.outputOrdinal, folded.lastFrameOrdinal.or current.lastFrameOrdinal, true⟩ }, true)
    else if folded.processedRows = 0 then do
      refuse (!initialized || current.lastFrameOrdinal.isSome) "resumed Window aggregate fold made no progress"
      refuse (accumulatorOf tables current.outputOrdinal).isNone
        "Window aggregate fold could not release an unstarted accumulator"
      return ({ loop with
        stateRows := loop.stateRows + 1
        nextCursor := some current
        tables := { tables with accumulator := none } }, false)
    else
      return ({ loop with nextCursor := some ⟨current.outputOrdinal, folded.lastFrameOrdinal, false⟩ }, false)

-- One round of the loop; `false` where it breaks.
def foldItem (function : FoldFunction Row Value) (partition : FoldPartition Row) (budget : WorkBudget) (loop : FoldLoop Value) :
    Except Fault (FoldLoop Value × Bool) :=
  match loop.nextCursor with
  | none => .error (.failed "completed Window aggregate retained a fold cursor")
  | some current => do
      let (initialized, tables) ← openAccumulator function loop.tables current
      let (folded, goes) ← foldFrame function partition budget current initialized { loop with
        workItems := loop.workItems + 1
        stateRows := loop.stateRows + if initialized then 1 else 0
        nextCursor := some current
        tables := tables }
      if !goes || decide (folded.processedRows = budget.maxInputRows) || decide (budget.maxInputBytes ≤ folded.processedBytes) then
        return (folded, false)
      else do
        let (finalized, tables) ← windowFinalizeFold function partition folded.tables current.outputOrdinal
          (budget.maxInputRows - folded.processedRows) (budget.maxInputBytes - folded.processedBytes)
          (decide (folded.processedRows = 0))
        if !finalized.applied then return ({ folded with tables := tables }, false)
        else
          let isLast := decide (current.outputOrdinal = partition.rows.length)
          return ({ folded with
            processedRows := folded.processedRows + 1
            processedBytes := folded.processedBytes + finalized.workBytes
            stateRows := folded.stateRows + finalized.stateRows
            nextCursor := if isLast then none else some { outputOrdinal := current.outputOrdinal + 1 }
            tables := tables }, !isLast)

-- The loop over at most so many work items.
def foldLoop (function : FoldFunction Row Value) (partition : FoldPartition Row) (budget : WorkBudget) :
    Nat → FoldLoop Value → Except Fault (FoldLoop Value)
  | 0, loop => .ok loop
  | items + 1, loop =>
      if loop.processedRows < budget.maxInputRows ∧ loop.processedBytes < budget.maxInputBytes then do
        let (loop, goes) ← foldItem function partition budget loop
        if goes then foldLoop function partition budget items loop else return loop
      else .ok loop

def runWindowAggregateFold (function : FoldFunction Row Value) (partition : FoldPartition Row) (tables : FoldTables Value)
    (cursor : WindowFoldCursor) (budget : WorkBudget) : Except Fault (WindowFoldPage × FoldTables Value) := do
  refuse (decide (max (partition.rows.length : Int) 1 < cursor.outputOrdinal))
    "Window aggregate output ordinal is outside its partition"
  if partition.rows = [] then do
    refuse (decide (cursor.outputOrdinal ≠ 1) || cursor.lastFrameOrdinal.isSome || cursor.readyToFinalize)
      "empty Window partition has an aggregate fold cursor"
    refuse tables.accumulator.isSome "empty Window partition retained aggregate state"
    return (⟨{}, none, 1⟩, tables)
  else do
    let loop ← foldLoop function partition budget foldWorkItemCap { nextCursor := some cursor, tables := tables }
    return (loop.page, loop.tables)

-- The fold of one function, from call to call.
structure FoldState (Value : Type) where
  cursor : Option WindowFoldCursor := some { outputOrdinal := 1 }
  tables : FoldTables Value

def FoldState.finished (state : FoldState Value) : Bool := state.cursor.isNone

-- One step: the primitive, and the machine's check of its page.
def foldStep (function : FoldFunction Row Value) (partition : FoldPartition Row) (state : FoldState Value) (budget : WorkBudget) :
    Except Fault (FoldState Value) :=
  match state.cursor with
  | none => .error (.failed "completed Window aggregate retained a fold cursor")
  | some cursor => do
      let (page, tables) ← runWindowAggregateFold function partition state.tables cursor budget
      page.validate cursor budget false
      return ⟨page.nextCursor, tables⟩

end Shiba.Window
