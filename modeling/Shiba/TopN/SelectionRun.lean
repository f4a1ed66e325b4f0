import Shiba.TopN.Page
import Shiba.Execution.Usage

set_option autoImplicit false

namespace Shiba.TopN

open Shiba.Execution Budget Fetch Portions Lexicographic

-- The ordered state, as its identity column and its constraints keep it.
structure TopNInput (Row : Type) where
  entries : List (TopNEntry Row)
  distinct : (entries.map TopNEntry.entryId).Nodup
  identity : ∀ entry ∈ entries, 0 < entry.entryId
  counted : ∀ entry ∈ entries, 0 < entry.multiplicity

-- What a Drain has stored: its continuation, and the candidates of its generation.
structure SelectState (Out : Type) where
  continuation : Option TopNContinuation
  candidate : List (Out × Nat)

def SelectState.selecting {Out : Type} (state : SelectState Out) : Bool :=
  match state.continuation with
  | some ⟨_, _, .select _ _ _⟩ => true
  | _ => false

def selectionStart {Out : Type} (machine : TopNMachine) (streamId generationId : Nat) (afterDrain : AfterDrain) : SelectState Out where
  continuation := some ⟨streamId, none, .select generationId (.initial machine.offset machine.limit) afterDrain⟩
  candidate := []

section

variable {Row Out Value : Type} [DecidableEq Out] (expressions : TopNExpressions Row Out Value) (machine : TopNMachine)
  (input : TopNInput Row)

-- One selection step: the primitive, and the machine's transition.
def selectStep (state : SelectState Out) (budget : WorkBudget) : Except Fault (SelectState Out) :=
  match state.continuation with
  | none => .error (.failed "runnable TopN has no input chunk")
  | some continuation => do
      match ← machine.action continuation with
      | .selectCandidates _ progress => do
          let (selected, candidate) ← runTopnSelection expressions input.entries machine.withTies state.candidate progress budget
          let transition ← machine.apply continuation (.selected selected) budget
          return ⟨transition.continuation, candidate⟩
      | _ => return state

-- The pages of one selection, each with its own budget, until it is complete.
def selectPages (budgets : Nat → WorkBudget) : Nat → Nat → SelectState Out → Except Fault (SelectState Out)
  | 0, _, state => .ok state
  | rounds + 1, page, state =>
      if state.selecting then do
        let after ← selectStep expressions machine input state (budgets page)
        selectPages budgets rounds (page + 1) after
      else .ok state

omit [DecidableEq Out] in
def ordered : List (TopNEntry Row) := orderBy TopNEntry.entryId expressions.keys input.entries

-- ORDER BY keys, entry id OFFSET … FETCH FIRST … ROWS [WITH TIES].
def sqlSelection : List Out :=
  (fetchFirst TopNEntry.multiplicity (keysEqual expressions.keys) machine.withTies machine.offset machine.limit
    (ordered expressions input)).map fun entry => expressions.output entry.row

-- How many rows of the order the pages have read.
def readAfter (budgets : Nat → WorkBudget) : Nat → Nat
  | 0 => 0
  | page + 1 =>
      let read := readAfter budgets page
      read + (boundedPage expressions (budgets page).maxInputBytes
        (((ordered expressions input).drop read).take (budgets page).maxInputRows)).length

def lastRead (read : Nat) : Option Int := ((ordered expressions input).take read).getLast?.map TopNEntry.entryId

-- The rows read decide the result: they are all rows, or they fill LIMIT and,
-- WITH TIES, the last of them does not tie with the row that fills it.
def Enough (read : Nat) : Prop :=
  (ordered expressions input).length ≤ read ∨
    machine.offset + machine.limit ≤ (copies TopNEntry.multiplicity ((ordered expressions input).take read)).length ∧
      (machine.withTies = false ∨ ∃ boundary last,
        ((copies TopNEntry.multiplicity (ordered expressions input)).drop machine.offset)[machine.limit - 1]? = some boundary ∧
        ((ordered expressions input).take read).getLast? = some last ∧ keysEqual expressions.keys last boundary = false)

-- The casts of the page's bounds to bigint.
def Fits (budget : WorkBudget) : Prop := budget.maxInputRows ≤ bigintMax ∧ budget.maxInputBytes ≤ bigintMax

-- A page that is reached has bounds that fit, and one that does not end the
-- selection ends at no lower id than the page before it.
def Onward (budgets : Nat → WorkBudget) : Prop :=
  ∀ page, page = 0 ∨ ¬ Enough expressions machine input (readAfter expressions input budgets page) →
    Fits (budgets page) ∧
    (¬ Enough expressions machine input (readAfter expressions input budgets (page + 1)) →
      rowIdBelow (lastRead expressions input (readAfter expressions input budgets (page + 1)))
        (lastRead expressions input (readAfter expressions input budgets page)) = false)

def scanAt (read : Nat) : Scan (TopNEntry Row) :=
  scanned TopNEntry.multiplicity machine.withTies ⟨machine.offset, machine.limit, none⟩ ((ordered expressions input).take read)

def progressAt (read : Nat) : SelectionProgress where
  cursor := ⟨lastRead expressions input read⟩
  offsetRemaining := (scanAt expressions machine input read).offset
  limitRemaining := (scanAt expressions machine input read).limit
  tieBoundaryRowId := (scanAt expressions machine input read).boundary.map TopNEntry.entryId

omit [DecidableEq Out]

theorem ranked_ordered : ranked expressions input.entries = ordered expressions input := by
  have all : (input.entries.filter fun entry => decide (0 < entry.multiplicity)) = input.entries := by
    rw [List.filter_eq_self]
    intro entry member
    exact decide_eq_true (input.counted entry member)
  rw [ranked, all]
  rfl

theorem ordered_member {entry : TopNEntry Row} (member : entry ∈ ordered expressions input) : entry ∈ input.entries := by
  rw [← ranked_ordered] at member
  exact ((ranked_member expressions entry).mp member).1

theorem ordered_strict : (ordered expressions input).Pairwise fun left right =>
    orderBefore TopNEntry.entryId expressions.keys left right = true := by
  rw [← ranked_ordered]
  exact ranked_strict expressions input.distinct

theorem last_read_positive (read : Nat) (rowId : Int) (last : lastRead expressions input read = some rowId) : 0 < rowId := by
  obtain ⟨entry, same, rfl⟩ := Option.map_eq_some_iff.mp last
  have member := List.mem_of_mem_take (List.mem_of_getLast? same)
  exact input.identity entry (ordered_member expressions input member)

theorem boundary_read (limited : 0 < machine.limit) {read : Nat} {boundary : TopNEntry Row}
    (closed : (scanAt expressions machine input read).boundary = some boundary) :
    machine.withTies = true ∧ boundary ∈ (ordered expressions input).take read ∧
      ((copies TopNEntry.multiplicity ((ordered expressions input).take read)).drop machine.offset)[machine.limit - 1]? =
        some boundary := by
  cases ties : machine.withTies with
  | false =>
      rw [scanAt, ties, scanned_open _ _ _ rfl] at closed
      cases closed
  | true =>
      rw [scanAt, ties, scanned_boundary _ _ _ _ limited] at closed
      have member := List.mem_of_mem_drop (List.mem_of_getElem? closed)
      obtain ⟨entry, inside, copy⟩ := List.mem_flatMap.mp member
      rw [List.eq_of_mem_replicate copy]
      rw [List.eq_of_mem_replicate copy] at closed
      exact ⟨rfl, inside, closed⟩

theorem counters_at (read : Nat) :
    (scanAt expressions machine input read).offset =
        machine.offset - (copies TopNEntry.multiplicity ((ordered expressions input).take read)).length ∧
      (scanAt expressions machine input read).limit =
        machine.limit - ((copies TopNEntry.multiplicity ((ordered expressions input).take read)).length - machine.offset) :=
  scanned_counters _ _ _ _

-- With ties the boundary is known from the row on that fills LIMIT.
theorem boundary_known (limited : 0 < machine.limit) (read : Nat) (ties : machine.withTies = true) :
    (scanAt expressions machine input read).boundary.isSome = true ↔
      machine.offset + machine.limit ≤ (copies TopNEntry.multiplicity ((ordered expressions input).take read)).length := by
  rw [scanAt, ties, scanned_boundary _ _ _ _ limited, Option.isSome_iff_ne_none, ne_eq, List.getElem?_eq_none_iff,
    List.length_drop]
  omega

theorem progress_valid (limited : 0 < machine.limit) (read : Nat) :
    (progressAt expressions machine input read).validate machine = .ok () := by
  obtain ⟨offset, limit⟩ := counters_at expressions machine input read
  have cursor : (progressAt expressions machine input read).cursor.validate = .ok () := by
    refine refuse_ok.mpr ?_
    cases last : lastRead expressions input read with
    | none => simp only [progressAt, last, Option.any_none]
    | some rowId =>
        have positive := last_read_positive expressions input read rowId last
        simp only [progressAt, last, Option.any_some]
        exact decide_eq_false (by omega)
  rw [SelectionProgress.validate, cursor, ok_bind, refuse_bind_ok, refuse_bind_ok, refuse_bind_ok, refuse_ok]
  refine ⟨?_, ?_, ?_, ?_⟩
  · cases closed : (scanAt expressions machine input read).boundary with
    | none => simp only [progressAt, closed, Option.map_none, Option.any_none]
    | some boundary =>
        obtain ⟨_, member, _⟩ := boundary_read expressions machine input limited closed
        have positive := input.identity boundary (ordered_member expressions input (List.mem_of_mem_take member))
        simp only [progressAt, closed, Option.map_some, Option.any_some]
        exact decide_eq_false (by omega)
  · rw [Bool.or_eq_false_iff]
    refine ⟨decide_eq_false ?_, decide_eq_false ?_⟩
    · change ¬ machine.offset < (scanAt expressions machine input read).offset
      omega
    · change ¬ machine.limit < (scanAt expressions machine input read).limit
      omega
  · cases closed : (scanAt expressions machine input read).boundary with
    | none => simp only [progressAt, closed, Option.map_none, Option.isSome_none, Bool.and_false]
    | some boundary =>
        obtain ⟨ties, _, _⟩ := boundary_read expressions machine input limited closed
        rw [ties]
        rfl
  · cases closed : (scanAt expressions machine input read).boundary with
    | none => simp only [progressAt, closed, Option.map_none, Option.isSome_none, Bool.false_and]
    | some boundary =>
        obtain ⟨ties, _, _⟩ := boundary_read expressions machine input limited closed
        have reached := (boundary_known expressions machine input limited read ties).mp (by rw [closed]; rfl)
        rw [Bool.and_eq_false_iff, Bool.or_eq_false_iff]
        right
        refine ⟨decide_eq_false (not_not.mpr ?_), decide_eq_false (not_not.mpr ?_)⟩
        · change (scanAt expressions machine input read).offset = 0
          omega
        · change (scanAt expressions machine input read).limit = 0
          omega

-- The counters and the boundary only move on.
theorem progress_moves (limited : 0 < machine.limit) (read more : Nat) (complete : Bool)
    (rowed : complete = false → ∃ rowId, lastRead expressions input (read + more) = some rowId)
    (filled : complete = false → machine.withTies = false →
      (copies TopNEntry.multiplicity ((ordered expressions input).take (read + more))).length < machine.offset + machine.limit) :
    validateSelectionProgress machine (progressAt expressions machine input read)
      (progressAt expressions machine input (read + more)) complete = .ok () := by
  obtain ⟨offset, limit⟩ := counters_at expressions machine input read
  obtain ⟨offsetNext, limitNext⟩ := counters_at expressions machine input (read + more)
  have grown : (copies TopNEntry.multiplicity ((ordered expressions input).take read)).length ≤
      (copies TopNEntry.multiplicity ((ordered expressions input).take (read + more))).length := by
    rw [List.take_add, copies_append, List.length_append]
    exact Nat.le_add_right _ _
  have kept (boundary : TopNEntry Row) (closed : (scanAt expressions machine input read).boundary = some boundary) :
      (scanAt expressions machine input (read + more)).boundary = some boundary := by
    rw [scanAt, List.take_add, scanned_append]
    exact scanned_closed _ _ _ _ boundary closed
  have opened (read : Nat) (short : (copies TopNEntry.multiplicity ((ordered expressions input).take read)).length <
      machine.offset + machine.limit) : (scanAt expressions machine input read).boundary = none := by
    cases closed : (scanAt expressions machine input read).boundary with
    | none => rfl
    | some boundary =>
        obtain ⟨ties, _, _⟩ := boundary_read expressions machine input limited closed
        have reached := (boundary_known expressions machine input limited read ties).mp (by rw [closed]; rfl)
        omega
  rw [validateSelectionProgress, refuse_bind_ok, refuse_bind_ok, refuse_bind_ok, refuse_bind_ok, refuse_bind_ok, refuse_ok]
  refine ⟨?_, ?_, ?_, ?_, ?_, ?_⟩
  · rw [Bool.or_eq_false_iff]
    refine ⟨decide_eq_false ?_, decide_eq_false ?_⟩
    · change ¬ (scanAt expressions machine input read).offset < (scanAt expressions machine input (read + more)).offset
      omega
    · change ¬ (scanAt expressions machine input read).limit < (scanAt expressions machine input (read + more)).limit
      omega
  · by_cases skipping : 0 < (scanAt expressions machine input (read + more)).offset
    · have before := opened read (by omega)
      have after := opened (read + more) (by omega)
      have sameLimit : (scanAt expressions machine input (read + more)).limit = (scanAt expressions machine input read).limit := by
        omega
      simp only [progressAt, before, after, sameLimit, ne_eq, not_true, decide_false, Bool.or_false, Bool.and_false]
    · rw [Bool.and_eq_false_iff]
      exact .inl (decide_eq_false skipping)
  · cases closed : (scanAt expressions machine input read).boundary with
    | none => simp only [progressAt, closed, Option.map_none, Option.isSome_none, Bool.false_and]
    | some boundary =>
        simp only [progressAt, closed, kept boundary closed, ne_eq, not_true, decide_false, Bool.and_false]
  · cases complete with
    | true => rfl
    | false =>
        obtain ⟨rowId, last⟩ := rowed rfl
        simp only [progressAt, last, Option.isNone_some, Bool.and_false]
  · cases complete with
    | true => rfl
    | false =>
        cases ties : machine.withTies with
        | false => rfl
        | true =>
            by_cases done : (scanAt expressions machine input (read + more)).limit = 0
            · have known := (boundary_known expressions machine input limited (read + more) ties).mpr (by omega)
              obtain ⟨boundary, closed⟩ := Option.isSome_iff_exists.mp known
              simp only [progressAt, closed, Option.map_some, Option.isNone_some, Bool.and_false]
            · rw [Bool.and_eq_false_iff, Bool.and_eq_false_iff]
              exact .inl (.inr (decide_eq_false done))
  · cases complete with
    | true => rfl
    | false =>
        cases ties : machine.withTies with
        | true => rfl
        | false =>
            have short := filled rfl ties
            simp only [Bool.not_false, Bool.true_and]
            apply decide_eq_false
            change ¬ (scanAt expressions machine input (read + more)).limit = 0
            omega

end

end Shiba.TopN
