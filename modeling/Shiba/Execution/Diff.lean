import Shiba.TopN.Machine

set_option autoImplicit false

namespace Shiba.Execution

open Budget
open Shiba.Stream (StreamLimits resourcesFit)
open Shiba.TopN (DiffLeg)

-- A row of the visible or of the candidate table; `rowId` is its identity column.
structure DiffRow (Key Row : Type) where
  rowId : Int
  outputKey : Key
  outputRow : Row
  multiplicity : Nat
deriving DecidableEq, Repr

-- The rows of one generation or partition, in the order of their identity columns.
structure DiffTables (Key Row : Type) where
  visible : List (DiffRow Key Row)
  candidate : List (DiffRow Key Row)
  nextVisibleId : Int
deriving DecidableEq, Repr

-- What one step reads besides the tables: its budget, and the limits and the
-- next sequence of its output stream.
structure DiffRound where
  budget : WorkBudget
  limits : StreamLimits
  chunkSeq : Nat

-- Where the texts of the two operators differ.
structure DiffWords where
  owner : String
  inputRows : String
  outputRows : String
  inputBytes : String
  outputBytes : String
deriving DecidableEq, Repr

structure DiffOutcome (Key Row : Type) where
  facts : PrimitiveFacts
  lastRowId : Option Int
  complete : Bool
  repeatCursor : Bool
  tables : DiffTables Key Row
  payload : List (Row × Int)

-- The octets of record_send and the weight field.
def effectRowBytes {Row : Type} (octets : Row → Nat) (row : Row) : Nat := octets row + 8

def i64Budget (value : Nat) (name : String) : Except Fault Unit := refuse (decide (bigintMax < value)) s!"{name} exceeds bigint"

-- The cursor predicate on an identity column; `repeats` is the source's repeat.
def cursorPredicate (rowId : Option Int) (repeats : Bool) (identity : Int) : Bool :=
  match rowId with
  | none => !repeats
  | some last => if repeats then decide (last ≤ identity) else decide (last < identity)

def huge (delta : Int) : Bool := decide ((bigintMax : Int) < delta)

-- least(delta, 9223372036854775807)::bigint of a positive difference.
def sliceOf (delta : Int) : Nat := (min delta bigintMax).toNat

-- The rows up to the first one whose difference exceeds a weight, with it.
def throughHuge {α : Type} (exceeds : α → Bool) (page : List α) : List α :=
  match page.findIdx? exceeds with
  | none => page
  | some first => page.take (first + 1)

def diffSign : DiffLeg → Int
  | .remove => -1
  | .add => 1

section

variable {Key Row : Type} [DecidableEq Key]

-- coalesce(multiplicity, 0) of the row that a key joins.
def copiesOf (rows : List (DiffRow Key Row)) (key : Key) : Nat :=
  ((rows.find? fun row => decide (row.outputKey = key)).map DiffRow.multiplicity).getD 0

namespace DiffTables

omit [DecidableEq Key] in
def iterated (tables : DiffTables Key Row) : DiffLeg → List (DiffRow Key Row)
  | .remove => tables.visible
  | .add => tables.candidate

omit [DecidableEq Key] in
def joined (tables : DiffTables Key Row) : DiffLeg → List (DiffRow Key Row)
  | .remove => tables.candidate
  | .add => tables.visible

def delta (tables : DiffTables Key Row) (leg : DiffLeg) (row : DiffRow Key Row) : Int :=
  row.multiplicity - copiesOf (tables.joined leg) row.outputKey

end DiffTables

omit [DecidableEq Key] in
def differenceOf (differences : List (DiffRow Key Row × Nat)) (row : DiffRow Key Row) : Option Nat :=
  (differences.find? fun difference => decide (difference.1.rowId = row.rowId)).map Prod.snd

-- DELETE of the rows whose copies are all in the slice, UPDATE of those with more.
omit [DecidableEq Key] in
def withoutSlice (differences : List (DiffRow Key Row × Nat)) (row : DiffRow Key Row) : Option (DiffRow Key Row) :=
  match differenceOf differences row with
  | none => some row
  | some slice =>
      if row.multiplicity = slice then none
      else if slice < row.multiplicity then some { row with multiplicity := row.multiplicity - slice }
      else some row

-- INSERT … ON CONFLICT(output_key) DO UPDATE; an identity is spent either way.
def insertSlice (tables : DiffTables Key Row) (difference : DiffRow Key Row × Nat) : DiffTables Key Row :=
  let row := difference.1
  if tables.visible.any fun stored => decide (stored.outputKey = row.outputKey) then
    { tables with
      visible := tables.visible.map fun stored =>
        if stored.outputKey = row.outputKey then
          { stored with outputRow := row.outputRow, multiplicity := stored.multiplicity + difference.2 }
        else stored
      nextVisibleId := tables.nextVisibleId + 1 }
  else
    { tables with
      visible := tables.visible ++ [⟨tables.nextVisibleId, row.outputKey, row.outputRow, difference.2⟩]
      nextVisibleId := tables.nextVisibleId + 1 }

-- The tables behind the mutation of a page, and the rows that it changed or deleted.
def mutate (leg : DiffLeg) (tables : DiffTables Key Row) (differences : List (DiffRow Key Row × Nat)) : DiffTables Key Row × Nat :=
  match leg with
  | .remove =>
      ({ tables with visible := tables.visible.filterMap (withoutSlice differences) },
        (tables.visible.filter fun row => (differenceOf differences row).any fun slice => decide (slice ≤ row.multiplicity)).length)
  | .add => (differences.foldl insertSlice tables, differences.length)

-- The append of a new chunk, and its checks when the step publishes it.
def appendDiff (limits : StreamLimits) (rows bytes : Nat) : Except Fault Unit := do
  refuse (decide (rows = 0) || decide (bytes = 0)) "data output append must contain rows and bytes"
  if resourcesFit limits .data rows bytes then return ()
  else .error (.raised "54000" "invalid chunk resources; only one oversized row may stand alone")

def maxDiffRows (round : DiffRound) : Nat :=
  min (min round.budget.maxInputRows round.budget.maxOutputRows) round.limits.targetChunkRows

def maxDiffBytes (round : DiffRound) : Nat :=
  min (min round.budget.maxInputBytes round.budget.maxOutputBytes) round.limits.targetChunkBytes

-- The common table expressions of the statement, under their names.
omit [DecidableEq Key] in
def diffSource (leg : DiffLeg) (rowId : Option Int) (repeats : Bool) (tables : DiffTables Key Row) (round : DiffRound) :
    List (DiffRow Key Row) :=
  ((tables.iterated leg).filter fun row => cursorPredicate rowId repeats row.rowId).take (maxDiffRows round + 1)

omit [DecidableEq Key] in
def diffBytes (octets : Row → Nat) (rows : List (DiffRow Key Row)) : Nat :=
  (rows.map fun row => effectRowBytes octets row.outputRow).sum

omit [DecidableEq Key] in
def boundedPrefix (octets : Row → Nat) (round : DiffRound) (source : List (DiffRow Key Row)) : List (DiffRow Key Row) :=
  withinBudget (fun page => decide (diffBytes octets page ≤ maxDiffBytes round)) (source.take (maxDiffRows round))

def comparedRows (leg : DiffLeg) (tables : DiffTables Key Row) (page : List (DiffRow Key Row)) : List (DiffRow Key Row) :=
  throughHuge (fun row => huge (tables.delta leg row)) page

def differingRows (leg : DiffLeg) (tables : DiffTables Key Row) (compared : List (DiffRow Key Row)) : List (DiffRow Key Row) :=
  compared.filter fun row => decide (0 < tables.delta leg row)

def differencesOf (leg : DiffLeg) (tables : DiffTables Key Row) (compared : List (DiffRow Key Row)) : List (DiffRow Key Row × Nat) :=
  (differingRows leg tables compared).map fun row => (row, sliceOf (tables.delta leg row))

omit [DecidableEq Key] in
def payloadOf (leg : DiffLeg) (differences : List (DiffRow Key Row × Nat)) : List (Row × Int) :=
  differences.map fun difference => (difference.1.outputRow, diffSign leg * difference.2)

-- The body of run_topn_diff and of run_window_diff behind the check of the cursor.
def runDiff (words : DiffWords) (octets : Row → Nat) (leg : DiffLeg) (rowId : Option Int) (repeats : Bool)
    (tables : DiffTables Key Row) (round : DiffRound) : Except Fault (DiffOutcome Key Row) := do
  i64Budget round.budget.maxInputRows words.inputRows
  i64Budget round.budget.maxOutputRows words.outputRows
  refuse (decide (maxDiffRows round = bigintMax)) s!"{words.owner} diff row budget overflow"
  i64Budget round.budget.maxInputBytes words.inputBytes
  i64Budget round.budget.maxOutputBytes words.outputBytes
  let source := diffSource leg rowId repeats tables round
  let bounded := boundedPrefix octets round source
  let compared := comparedRows leg tables bounded
  let differences := differencesOf leg tables compared
  let repeatCursor := compared.any fun row => huge (tables.delta leg row)
  let payload := payloadOf leg differences
  let mutation := mutate leg tables differences
  let emitted := differences.length
  let emittedBytes := diffBytes octets (differingRows leg tables compared)
  let output ←
    if emitted = 0 then do
      refuse (decide (payload.length ≠ 0) || decide (mutation.2 ≠ 0)) s!"{words.owner} appended or mutated an empty diff"
      pure OutputFacts.none
    else do
      refuse (decide (payload.length ≠ emitted) || decide (mutation.2 ≠ emitted)) s!"{words.owner} diff append is inconsistent"
      appendDiff round.limits emitted emittedBytes
      pure (OutputFacts.data round.chunkSeq)
  return {
    facts := {
      usage := {
        inputRows := compared.length
        inputBytes := diffBytes octets compared
        outputRows := emitted
        outputBytes := emittedBytes }
      stateRows := mutation.2
      output := output }
    lastRowId := compared.getLast?.map DiffRow.rowId
    complete := decide (source.length = bounded.length) && decide (bounded.length = compared.length) && !repeatCursor
    repeatCursor := repeatCursor
    tables := mutation.1
    payload := payload }

end

end Shiba.Execution
