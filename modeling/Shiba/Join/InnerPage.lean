import Shiba.Join.Keys

set_option autoImplicit false

namespace Shiba.Join

open Shiba.Execution Weighted

-- One input chunk that is joined as a whole. `order` is the order in which
-- PostgreSQL returns the groups of its rows.
structure InputPage (Row : Type) where
  side : InputSide
  rows : List (Row × Int)
  order : List Row

inductive StoreChoice (Row : Type) where
  | row (choice : Choice Row)
  | page (page : InputPage Row) (budget : WorkBudget)

structure PageMeasure where
  outputRows : Nat
  outputBytes : Nat
deriving DecidableEq, Repr

-- A bigint expression that leaves its range aborts the statement.
def inBigint (fits : Bool) : Except Fault Unit := if fits then .ok () else .error (.raised "22003" "bigint out of range")

-- The smallest sum of a prefix: `min(prefix)` over the rows of one key.
def minPrefix : List Int → Int
  | [] => 0
  | [weight] => weight
  | weight :: rest => min weight (weight + minPrefix rest)

section

variable {Row Value : Type} (layout : Layout Row Value)

-- The rows of the page with the opposite rows for which the condition is TRUE.
def joinedRows (page : InputPage Row) (opposite : List (Entry Row)) : List (OutputRow Row × Int) :=
  page.rows.flatMap fun item =>
    (opposite.filter fun entry => keyJoin layout.keys page.side item.1 entry.row false
      (decide (entry.truth layout.spec page.side item.1 = .true))).map
        fun entry => (pairOf page.side item.1 entry.row, item.2 * entry.multiplicity)

def outputRowBytes : OutputRow Row → Nat
  | .pair left right => layout.spec.pairBytes left right
  | .single side row => layout.spec.singleBytes side row

def measureInnerPage (page : InputPage Row) (opposite : List (Entry Row)) (budget : WorkBudget) : Option PageMeasure :=
  let inputBytes := (page.rows.map fun item => layout.spec.rowBytes page.side item.1).sum
  let joined := joinedRows layout page opposite
  let outputBytes := (joined.map fun item => outputRowBytes layout item.1).sum
  if budget.maxInputRows < page.rows.length ∨ budget.maxInputBytes < inputBytes then none
  else if budget.maxOutputRows < joined.length ∨ budget.maxOutputBytes < outputBytes then none
  else some { outputRows := joined.length, outputBytes := outputBytes }

-- The sum of the weights that make the condition what `truth` says, over the joined rows.
def pageDelta (page : InputPage Row) (entry : Entry Row) (truth : MatchTruth) : Int :=
  total page.rows fun row => keyJoin layout.keys page.side row entry.row true true &&
    decide (entry.truth layout.spec page.side row = truth)

def changesCandidate (page : InputPage Row) (entry : Entry Row) : Bool :=
  decide (pageDelta layout page entry .true ≠ 0) || decide (pageDelta layout page entry .unknown ≠ 0)

def underflowsCandidate (page : InputPage Row) (entry : Entry Row) : Bool :=
  decide (entry.counts.matched + pageDelta layout page entry .true < 0) ||
    decide (entry.counts.unknown + pageDelta layout page entry .unknown < 0)

def updatedCandidate (page : InputPage Row) (entry : Entry Row) : Entry Row :=
  { entry with counts :=
      { matched := (entry.counts.matched + pageDelta layout page entry .true).toNat
        unknown := (entry.counts.unknown + pageDelta layout page entry .unknown).toNat } }

def updateInnerPageCandidates (page : InputPage Row) (opposite : List (Entry Row)) : Except Fault (List (Entry Row)) := do
  inBigint (opposite.all fun entry =>
    decide (entry.counts.matched + pageDelta layout page entry .true ≤ bigintMax) &&
      decide (entry.counts.unknown + pageDelta layout page entry .unknown ≤ bigintMax))
  refuse (opposite.any fun entry => changesCandidate layout page entry && underflowsCandidate layout page entry)
    "Join page candidate counts would underflow"
  return opposite.map (updatedCandidate layout page)

-- The sum over the opposite rows that a branch of the key predicate joins to a row.
def pageCount (side : InputSide) (opposite : List (Entry Row)) (row : Row) (truth : MatchTruth) (includeUnknown : Bool) : Nat :=
  (opposite.map fun entry =>
    if keyJoin layout.keys side row entry.row includeUnknown (decide (entry.truth layout.spec side row = truth)) then
      entry.multiplicity
    else 0).sum

def pageCounts (side : InputSide) (opposite : List (Entry Row)) (row : Row) : MatchCounts :=
  { matched := pageCount layout side opposite row .true false
    unknown := pageCount layout side opposite row .unknown true }

variable [DecidableEq Row]

def oldMultiplicity (own : List (Entry Row)) (row : Row) : Nat := ((ownEntry own row).map Entry.multiplicity).getD 0

def rowPrefix (page : InputPage Row) (row : Row) : Int :=
  minPrefix ((page.rows.filter fun item => decide (item.1 = row)).map Prod.snd)

def newMultiplicity (page : InputPage Row) (own : List (Entry Row)) (row : Row) : Int :=
  oldMultiplicity own row + weight page.rows row

def validRow (page : InputPage Row) (own : List (Entry Row)) (row : Row) : Bool :=
  decide (0 ≤ oldMultiplicity own row + rowPrefix page row) && decide (0 ≤ newMultiplicity page own row)

def removesRow (page : InputPage Row) (own : List (Entry Row)) (entry : Entry Row) : Bool :=
  decide (entry.row ∈ page.order) && decide (newMultiplicity page own entry.row = 0)

def updatedRow (page : InputPage Row) (own opposite : List (Entry Row)) (entry : Entry Row) : Entry Row :=
  if entry.row ∈ page.order then
    { entry with multiplicity := (newMultiplicity page own entry.row).toNat
                 counts := pageCounts layout page.side opposite entry.row }
  else entry

def insertedRows (page : InputPage Row) (own opposite : List (Entry Row)) : List Row → Int → List (Entry Row)
  | [], _ => []
  | row :: rest, nextRowId =>
      { rowId := nextRowId, row := row, multiplicity := (newMultiplicity page own row).toNat
        counts := pageCounts layout page.side opposite row } :: insertedRows page own opposite rest (nextRowId + 1)

def absentRows (page : InputPage Row) (own : List (Entry Row)) : List Row :=
  page.order.filter fun row => (ownEntry own row).isNone

-- A group that is valid but neither removed, updated nor inserted is an absent row that nets to nothing.
def applyInnerPageOwnState (page : InputPage Row) (own opposite : List (Entry Row)) (nextRowId : Int) :
    Except Fault (List (Entry Row) × Int) := do
  inBigint (page.order.all fun row => decide (newMultiplicity page own row ≤ bigintMax) &&
    decide (pageCount layout page.side opposite row .true false ≤ bigintMax) &&
      decide (pageCount layout page.side opposite row .unknown true ≤ bigintMax))
  refuse (!(page.order.all (validRow page own)) ||
      (absentRows page own).any fun row => decide (newMultiplicity page own row = 0))
    "Join page own multiplicity would underflow"
  let kept := (own.filter fun entry => !removesRow page own entry).map (updatedRow layout page own opposite)
  let absent := absentRows page own
  return (kept ++ insertedRows layout page own opposite absent nextRowId, nextRowId + absent.length)

def executeInnerPage (state : JoinState Row) (page : InputPage Row) : Except Fault (JoinState Row) := do
  let side := page.side
  let entries ← updateInnerPageCandidates layout page (state.arrangement side.opposite)
  let (own, nextRowId) ← applyInnerPageOwnState layout page (state.arrangement side) entries (state.nextRowId side)
  return { state with
    arrangement := setSide (setSide state.arrangement side.opposite entries) side own
    nextRowId := setSide state.nextRowId side nextRowId
    consumed := state.consumed ++ eventsOf side page.rows
    outputs := state.outputs ++ joinedRows layout page (state.arrangement side.opposite) }

def storeStep (state : JoinState Row) (choice : StoreChoice Row) : Except Fault (JoinState Row) :=
  match choice with
  | .row choice => joinStep layout.spec state choice
  | .page page _ => executeInnerPage layout state page

-- The page is taken for an inner join between two rows when the whole chunk fits the budget.
structure PageReady (state : JoinState Row) (page : InputPage Row) (budget : WorkBudget) : Prop where
  idle : state.current = none
  inner : layout.spec.mode = .inner
  measured : (measureInnerPage layout page (state.arrangement page.side.opposite) budget).isSome = true
  grouped : page.order.Perm (page.rows.map Prod.fst).dedup

inductive Ready (state : JoinState Row) : StoreChoice Row → Prop where
  | row (choice : Choice Row) : Ready state (.row choice)
  | page (page : InputPage Row) (budget : WorkBudget) (ready : PageReady layout state page budget) :
      Ready state (.page page budget)

-- No row that the page keeps has a stored opposite row whose keys are unknown
-- while the residual is FALSE.
def PageClean (state : JoinState Row) (page : InputPage Row) : Prop :=
  ∀ row ∈ page.order, 0 < newMultiplicity page (state.arrangement page.side) row →
    ∀ entry ∈ state.arrangement page.side.opposite, ¬ FalselyUnknown layout page.side row entry.row

inductive Clean (state : JoinState Row) : StoreChoice Row → Prop where
  | row (choice : Choice Row) : Clean state (.row choice)
  | page (page : InputPage Row) (budget : WorkBudget) (ready : PageReady layout state page budget)
      (clean : PageClean layout state page) : Clean state (.page page budget)

end

end Shiba.Join
