import Shiba.TopN.Machine
import Shiba.Execution.Btree
import Shiba.Library.Fetch

set_option autoImplicit false

namespace Shiba.TopN

open Shiba.Execution Budget Fetch

-- A row of the ordered state: its id has nothing to do with its place in the order.
structure TopNEntry (Row : Type) where
  entryId : Int
  row : Row
  multiplicity : Nat
deriving DecidableEq, Repr

-- The compiled expressions of the stage, and the size of a row.
structure TopNExpressions (Row Out Value : Type) where
  keys : List (KeyColumn (TopNEntry Row) Value)
  output : Row → Out
  rowBytes : Row → Nat

-- A row of a page with what OFFSET leaves of it and what LIMIT takes of that.
structure PageRow (Row : Type) extends TopNEntry Row where
  ordinal : Nat
  available : Nat
  availableBefore : Nat
  baseTake : Nat
deriving DecidableEq, Repr

structure TieBoundary (Row : Type) where
  entry : TopNEntry Row
  ordinal : Nat

-- sum(…) OVER (… ROWS BETWEEN UNBOUNDED PRECEDING AND 1 PRECEDING).
def preceding {α : Type} (amount : α → Nat) : List α → Nat → List (α × Nat)
  | [], _ => []
  | item :: rest, before => (item, before) :: preceding amount rest (before + amount item)

def i64FromUsize (value : Nat) (name : String) : Except Fault Unit := refuse (decide (bigintMax < value)) s!"{name} exceeds bigint"

-- INSERT … ON CONFLICT DO UPDATE of one multiplicity.
def upsert {Out : Type} [DecidableEq Out] (table : List (Out × Nat)) (item : Out × Nat) : List (Out × Nat) :=
  if table.any (fun stored => decide (stored.1 = item.1)) then
    table.map fun stored => if stored.1 = item.1 then (stored.1, stored.2 + item.2) else stored
  else table ++ [item]

section

variable {Row Out Value : Type} (expressions : TopNExpressions Row Out Value) (entries : List (TopNEntry Row))

def afterCursor (cursor : Option Int) (input : TopNEntry Row) : Bool :=
  match cursor with
  | none => true
  | some rowId => (entries.filter fun boundary => decide (boundary.entryId = rowId)).any fun boundary =>
      keysetAfter TopNEntry.entryId expressions.keys boundary input

def selectionSource (cursor : Option Int) (maxRows : Nat) : List (TopNEntry Row) :=
  (orderBy TopNEntry.entryId expressions.keys
    (entries.filter fun input => decide (0 < input.multiplicity) && afterCursor expressions entries cursor input)).take maxRows

def pageBytes (page : List (TopNEntry Row)) : Nat := (page.map fun entry => expressions.rowBytes entry.row).sum

def boundedPage (maxBytes : Nat) (source : List (TopNEntry Row)) : List (TopNEntry Row) :=
  withinBudget (fun page => decide (pageBytes expressions page ≤ maxBytes)) source

def offsetted (offset : Nat) (page : List (TopNEntry Row)) : List (TopNEntry Row × Nat) :=
  (preceding TopNEntry.multiplicity page 0).map fun (entry, before) =>
    (entry, entry.multiplicity - min entry.multiplicity (offset - before))

def limited (offset limit : Nat) (page : List (TopNEntry Row)) : List (PageRow Row) :=
  (preceding Prod.snd (offsetted offset page) 0).zipIdx.map fun (((entry, available), before), index) =>
    { entry with ordinal := index + 1, available := available, availableBefore := before
                 baseTake := min available (limit - before) }

def newBoundary (withTies : Bool) (limit : Nat) (rows : List (PageRow Row)) : Option (PageRow Row) :=
  rows.find? fun row => withTies && decide (0 < limit) && decide (0 < row.available) && decide (row.availableBefore < limit) &&
    decide (limit ≤ row.availableBefore + row.available)

-- A persisted boundary stands before the page.
def boundaryChoice (withTies : Bool) (progress : SelectionProgress) (rows : List (PageRow Row)) : Option (Int × Nat) :=
  match progress.tieBoundaryRowId with
  | some rowId => some (rowId, 0)
  | none => (newBoundary withTies progress.limitRemaining rows).map fun row => (row.entryId, row.ordinal)

def tieBoundary (choice : Option (Int × Nat)) : Option (TieBoundary Row) :=
  choice.bind fun (rowId, ordinal) =>
    (entries.find? fun entry => decide (entry.entryId = rowId)).map fun entry => ⟨entry, ordinal⟩

def tiedRow (boundary : Option (TieBoundary Row)) (row : PageRow Row) : Bool :=
  match boundary with
  | none => false
  | some boundary => keysEqual expressions.keys row.toTopNEntry boundary.entry

def takeWeight (withTies : Bool) (boundary : Option (TieBoundary Row)) (row : PageRow Row) : Nat :=
  match boundary with
  | none => row.baseTake
  | some boundary =>
      if !withTies then row.baseTake
      else if row.ordinal < boundary.ordinal then row.available
      else if keysEqual expressions.keys row.toTopNEntry boundary.entry then row.available
      else 0

def crossedTieBoundary (boundary : Option (TieBoundary Row)) (rows : List (PageRow Row)) : Bool :=
  rows.any fun row => boundary.any (fun boundary => decide (boundary.ordinal < row.ordinal)) && !tiedRow expressions boundary row

def hasMore (page : List (TopNEntry Row)) : Bool :=
  match page.getLast? with
  | none => false
  | some boundary => entries.any fun input =>
      decide (0 < input.multiplicity) && keysetAfter TopNEntry.entryId expressions.keys boundary input

def selectedRows (withTies : Bool) (boundary : Option (TieBoundary Row)) (rows : List (PageRow Row)) : List (Out × Nat) :=
  (rows.filter fun row => decide (0 < takeWeight expressions withTies boundary row)).map fun row =>
    (expressions.output row.row, takeWeight expressions withTies boundary row)

-- Advances one ranked page, and adds what it takes to the candidates.
def runTopnSelection [DecidableEq Out] (withTies : Bool) (candidate : List (Out × Nat)) (progress : SelectionProgress)
    (budget : WorkBudget) : Except Fault (TopNSelection × List (Out × Nat)) := do
  i64FromUsize budget.maxInputRows "TopN selection row budget"
  i64FromUsize budget.maxInputBytes "TopN selection byte budget"
  let page := boundedPage expressions budget.maxInputBytes
    (selectionSource expressions entries progress.cursor.rowId budget.maxInputRows)
  let rows := limited progress.offsetRemaining progress.limitRemaining page
  let choice := boundaryChoice withTies progress rows
  let boundary := tieBoundary entries choice
  let collapsed := (selectedRows expressions withTies boundary rows).foldl upsert []
  let lastId := page.getLast?.map TopNEntry.entryId
  let offsetRemaining := progress.offsetRemaining - (page.map TopNEntry.multiplicity).sum
  let limitRemaining := progress.limitRemaining - (rows.map PageRow.available).sum
  let complete := decide (page.length = 0) || (!withTies && decide (limitRemaining = 0)) ||
    (withTies && choice.isSome && crossedTieBoundary expressions boundary rows) || !hasMore expressions entries page
  refuse (decide (page.length = 0) && (!complete || lastId.isSome)) "TopN empty selection page is not complete"
  let selection : TopNSelection :=
    { page := { facts := { usage := { inputRows := page.length, inputBytes := pageBytes expressions page }
                           stateRows := collapsed.length }
                lastRowId := lastId
                complete := complete }
      progress := { cursor := ⟨lastId⟩, offsetRemaining := offsetRemaining, limitRemaining := limitRemaining
                    tieBoundaryRowId := choice.map Prod.fst } }
  return (selection, collapsed.foldl upsert candidate)

end

section

variable {Row Out Value : Type} (expressions : TopNExpressions Row Out Value)

-- The rows of a page from some row on, with the sums of the rows before it.
def pageRows (offset limit : Nat) : List (TopNEntry Row) → Nat → Nat → Nat → List (PageRow Row)
  | [], _, _, _ => []
  | entry :: rest, before, availableBefore, index =>
      let available := entry.multiplicity - min entry.multiplicity (offset - before)
      { entry with ordinal := index + 1, available := available, availableBefore := availableBefore
                   baseTake := min available (limit - availableBefore) } ::
        pageRows offset limit rest (before + entry.multiplicity) (availableBefore + available) (index + 1)

variable (withTies : Bool) (offset limit : Nat) (page : List (TopNEntry Row)) (before availableBefore index : Nat)

theorem limited_rows :
    limited offset limit page = pageRows offset limit page 0 0 0 := by
  have from_here : ∀ (page : List (TopNEntry Row)) (before availableBefore index : Nat),
      (((preceding Prod.snd ((preceding TopNEntry.multiplicity page before).map fun item : TopNEntry Row × Nat =>
        (item.1, item.1.multiplicity - min item.1.multiplicity (offset - item.2))) availableBefore).zipIdx index).map
          fun item : ((TopNEntry Row × Nat) × Nat) × Nat =>
            ({ item.1.1.1 with ordinal := item.2 + 1, available := item.1.1.2, availableBefore := item.1.2
                               baseTake := min item.1.1.2 (limit - item.1.2) } : PageRow Row)) =
        pageRows offset limit page before availableBefore index := by
    intro page
    induction page with
    | nil => exact fun _ _ _ => rfl
    | cons entry rest ih =>
        intro before availableBefore index
        rw [preceding, List.map_cons, preceding, List.zipIdx_cons, List.map_cons, ih]
        rfl
  exact from_here page 0 0 0

theorem rows_entries :
    (pageRows offset limit page before availableBefore index).map PageRow.toTopNEntry = page := by
  induction page generalizing before availableBefore index with
  | nil => rfl
  | cons entry rest ih => rw [pageRows, List.map_cons, ih]

theorem rows_behind (row : PageRow Row) (member : row ∈ pageRows offset limit page before availableBefore index) :
    index < row.ordinal := by
  induction page generalizing before availableBefore index with
  | nil => cases member
  | cons entry rest ih =>
      rcases List.mem_cons.mp member with rfl | later
      · exact Nat.lt_succ_self index
      · exact Nat.lt_of_succ_lt (ih _ _ _ later)

theorem available_left (entry : TopNEntry Row) (offset before : Nat) :
    entry.multiplicity - min entry.multiplicity (offset - before) = entry.multiplicity - (offset - before) := by omega

-- OFFSET leaves what it does not skip of the copies of the page.
theorem available_sum :
    ((pageRows offset limit page before availableBefore index).map PageRow.available).sum =
      (copies TopNEntry.multiplicity page).length - (offset - before) := by
  induction page generalizing before availableBefore index with
  | nil => exact (Nat.zero_sub _).symm
  | cons entry rest ih =>
      rw [pageRows, List.map_cons, List.sum_cons, ih, copies_cons, List.length_append, List.length_replicate]
      change entry.multiplicity - min entry.multiplicity (offset - before) + _ = _
      rw [available_left]
      omega

theorem closes_here {offset : Nat} {before : Nat} {entry : TopNEntry Row} {available : Nat}
    (left : available = entry.multiplicity - min entry.multiplicity (offset - before)) :
    (withTies && decide (0 < limit) && decide (0 < available) && decide (availableBefore < limit) &&
        decide (limit ≤ availableBefore + available)) =
      Scan.closes TopNEntry.multiplicity withTies ⟨offset - before, limit - availableBefore, none⟩ entry := by
  rw [available_left] at left
  rw [Bool.eq_iff_iff]
  simp only [Scan.closes, Scan.available, ← left, Bool.and_eq_true, decide_eq_true_eq]
  cases withTies
  · simp only [Bool.false_eq_true, false_and]
  · simp only [true_and]
    omega

theorem next_here (entry : TopNEntry Row) (boundary : Option (TopNEntry Row)) :
    Scan.next TopNEntry.multiplicity withTies ⟨offset - before, limit - availableBefore, boundary⟩ entry =
      ⟨offset - (before + entry.multiplicity),
        limit - (availableBefore + (entry.multiplicity - min entry.multiplicity (offset - before))),
        (Scan.next TopNEntry.multiplicity withTies ⟨offset - before, limit - availableBefore, boundary⟩ entry).boundary⟩ := by
  rw [available_left]
  simp only [Scan.next, Scan.available, Nat.sub_sub]

-- Without a boundary in the page every row is cut at LIMIT.
theorem base_taken {withTies : Bool} {offset limit : Nat}
    (none : newBoundary withTies limit (pageRows offset limit page before availableBefore index) = none) :
    (pageRows offset limit page before availableBefore index).map (fun row => (row.toTopNEntry, row.baseTake)) =
        taken TopNEntry.multiplicity (keysEqual expressions.keys) withTies ⟨offset - before, limit - availableBefore, .none⟩ page ∧
      (scanned TopNEntry.multiplicity withTies ⟨offset - before, limit - availableBefore, .none⟩ page).boundary = .none := by
  induction page generalizing before availableBefore index with
  | nil => exact ⟨rfl, rfl⟩
  | cons entry rest ih =>
      rw [pageRows, newBoundary, List.find?_cons] at none
      split at none
      · cases none
      · next missed =>
        have goes := (closes_here withTies limit availableBefore rfl).symm.trans missed
        have next := next_here withTies offset limit before availableBefore entry .none
        have step : (Scan.next TopNEntry.multiplicity withTies ⟨offset - before, limit - availableBefore, .none⟩ entry).boundary =
            .none := by
          simp only [Scan.next, goes, Bool.false_eq_true, if_false]
        rw [step] at next
        obtain ⟨rows, still⟩ := ih (before + entry.multiplicity) _ (index + 1) none
        rw [pageRows, List.map_cons, rows, taken, next]
        refine ⟨?_, ?_⟩
        · simp only [Scan.take, goes, Bool.false_eq_true, if_false, Scan.available, available_left]
        · rw [scanned, List.foldl_cons, next]
          exact still

-- Behind a boundary a row is taken whole, or not at all.
theorem behind_taken (left : Nat) (page : List (TopNEntry Row)) (before availableBefore index : Nat)
    (boundary : TopNEntry Row) :
    (pageRows offset limit page before availableBefore index).map (fun row =>
        (row.toTopNEntry, if keysEqual expressions.keys row.toTopNEntry boundary then row.available else 0)) =
      taken TopNEntry.multiplicity (keysEqual expressions.keys) withTies ⟨offset - before, left, some boundary⟩ page := by
  induction page generalizing before availableBefore index left with
  | nil => rfl
  | cons entry rest ih =>
      have next : Scan.next TopNEntry.multiplicity withTies ⟨offset - before, left, some boundary⟩ entry =
          ⟨offset - (before + entry.multiplicity), left - (entry.multiplicity - (offset - before)), some boundary⟩ := by
        simp only [Scan.next, Scan.available, Nat.sub_sub]
      rw [pageRows, List.map_cons, ih (left - (entry.multiplicity - (offset - before))), taken, next]
      congr 1
      simp only [Scan.take, Scan.available, Prod.mk.injEq, true_and]
      rw [available_left]

theorem behind_crossed (ordinal : Nat) (boundary : TopNEntry Row) (behind : ordinal ≤ index) :
    ((pageRows offset limit page before availableBefore index).any fun row =>
        decide (ordinal < row.ordinal) && !keysEqual expressions.keys row.toTopNEntry boundary) =
      page.any fun entry => !keysEqual expressions.keys entry boundary := by
  induction page generalizing before availableBefore index with
  | nil => rfl
  | cons entry rest ih =>
      rw [pageRows, List.any_cons, ih _ _ _ (Nat.le_succ_of_le behind), List.any_cons]
      congr 1
      change (decide (ordinal < index + 1) && _) = _
      rw [decide_eq_true (by omega), Bool.true_and]

-- The row that takes the last of LIMIT splits its page: the rows before it are
-- taken whole, and those behind it when they tie.
theorem found_taken {offset limit : Nat} {found : PageRow Row}
    (new : newBoundary true limit (pageRows offset limit page before availableBefore index) = some found) :
    availableBefore < limit ∧
    (pageRows offset limit page before availableBefore index).map (fun row =>
        (row.toTopNEntry, if row.ordinal < found.ordinal then row.available
          else if keysEqual expressions.keys row.toTopNEntry found.toTopNEntry then row.available else 0)) =
      taken TopNEntry.multiplicity (keysEqual expressions.keys) true ⟨offset - before, limit - availableBefore, none⟩ page ∧
    (scanned TopNEntry.multiplicity true ⟨offset - before, limit - availableBefore, none⟩ page).boundary = some found.toTopNEntry ∧
    ∃ earlier later, page = earlier ++ found.toTopNEntry :: later ∧
      ((pageRows offset limit page before availableBefore index).any fun row =>
        decide (found.ordinal < row.ordinal) && !keysEqual expressions.keys row.toTopNEntry found.toTopNEntry) =
        later.any fun entry => !keysEqual expressions.keys entry found.toTopNEntry := by
  induction page generalizing before availableBefore index with
  | nil => cases new
  | cons entry rest ih =>
      have listed := List.mem_of_find?_eq_some new
      rw [pageRows, newBoundary, List.find?_cons] at new
      split at new
      · next closed =>
        obtain rfl := Option.some.inj new
        have closes := (closes_here true limit availableBefore rfl).symm.trans closed
        have low : availableBefore < limit := by
          simp only [Bool.and_eq_true, decide_eq_true_eq] at closed
          exact closed.1.2
        have next := next_here true offset limit before availableBefore entry none
        have step : (Scan.next TopNEntry.multiplicity true ⟨offset - before, limit - availableBefore, none⟩ entry).boundary =
            some entry := by
          simp only [Scan.next, closes, if_true]
        rw [step] at next
        refine ⟨low, ?_, ?_, [], rest, rfl, ?_⟩
        · rw [taken, next, pageRows, List.map_cons, ← behind_taken expressions true offset limit _ rest _
            (availableBefore + (entry.multiplicity - min entry.multiplicity (offset - before))) (index + 1) entry]
          congr 1
          · simp only [Nat.lt_irrefl, if_false, keys_equal_self, if_true, Scan.take, closes, Scan.available, available_left]
          · apply List.map_congr_left
            intro row member
            have later := rows_behind offset limit rest _ _ _ row member
            simp only
            rw [if_neg (by omega)]
        · rw [scanned, List.foldl_cons, next]
          exact scanned_closed _ _ _ _ _ rfl
        · rw [pageRows, List.any_cons]
          change (decide (index + 1 < index + 1) && _ || _) = _
          rw [decide_eq_false (Nat.lt_irrefl _), Bool.false_and, Bool.false_or]
          exact behind_crossed expressions offset limit rest _ _ _ _ entry (Nat.le_refl _)
      · next missed =>
        obtain ⟨low, rows, boundary, earlier, later, split, crossed⟩ := ih _ _ _ new
        have behind := rows_behind offset limit rest _ _ _ found (List.mem_of_find?_eq_some new)
        have goes := (closes_here true limit availableBefore rfl).symm.trans missed
        have next := next_here true offset limit before availableBefore entry none
        have step : (Scan.next TopNEntry.multiplicity true ⟨offset - before, limit - availableBefore, none⟩ entry).boundary =
            none := by
          simp only [Scan.next, goes, Bool.false_eq_true, if_false]
        rw [step] at next
        refine ⟨by omega, ?_, ?_, entry :: earlier, later, by rw [split]; rfl, ?_⟩
        · rw [pageRows, List.map_cons, rows, taken, next]
          congr 1
          rw [if_pos (Nat.lt_of_succ_lt_succ (Nat.succ_lt_succ behind))]
          simp only [Scan.take, goes, Bool.false_eq_true, if_false, Scan.available, available_left, Prod.mk.injEq, true_and]
          rw [available_left] at low
          omega
        · rw [scanned, List.foldl_cons, next]
          exact boundary
        · rw [pageRows, List.any_cons, crossed]
          change (decide (found.ordinal < index + 1) && _ || _) = _
          rw [decide_eq_false (by omega), Bool.false_and, Bool.false_or]

end

end Shiba.TopN
