import Shiba.Window.NtileValue
import Shiba.Library.Rounds

set_option autoImplicit false

namespace Shiba.Window

open Shiba.Execution Budget Portions Rounds

section Fold

variable (total : Nat)

theorem fold_append (state : NtileState) (first second : List NtileRow) :
    foldNtile total state (first ++ second) = (foldNtile total state first >>= fun page =>
      foldNtile total page.2 second >>= fun more => .ok (page.1 ++ more.1, more.2)) := by
  induction first generalizing state with
  | nil =>
      change foldNtile total state second = (foldNtile total state second >>= fun more => .ok ([] ++ more.1, more.2))
      cases foldNtile total state second with
      | error fault => rfl
      | ok more => rfl
  | cons row rest ih =>
      rw [List.cons_append, foldNtile, foldNtile, ih]
      cases windowNtileValue row.ordinal total (state.next row).bucketCount (state.next row).firstOrdinal with
      | error fault => rfl
      | ok value =>
          rw [ok_bind, ok_bind]
          cases toInteger value with
          | error fault => rfl
          | ok value =>
              rw [ok_bind, ok_bind]
              cases foldNtile total (state.next row) rest with
              | error fault => rfl
              | ok page =>
                  obtain ⟨values, next⟩ := page
                  rw [ok_bind, ok_bind]
                  change ((foldNtile total next second >>= fun more => Except.ok (values ++ more.1, more.2)) >>= _) =
                    (foldNtile total next second >>= _)
                  cases foldNtile total next second with
                  | error fault => rfl
                  | ok more => rfl

-- A counter that runs never fails again.
theorem counter_runs (context : NtileContext) (running : context.ntile ≠ 0) (arguments : List (Option Int)) :
    ∃ values, postgresNtile total context arguments = .ok values := by
  induction arguments generalizing context with
  | nil => exact ⟨[], rfl⟩
  | cons argument rest ih =>
      have still : context.advance.ntile ≠ 0 := by
        unfold NtileContext.advance
        split
        · split
          · exact Nat.succ_ne_zero _
          · exact Nat.succ_ne_zero _
        · exact running
      obtain ⟨values, ran⟩ := ih context.advance still
      refine ⟨some (context.advance.ntile : Int) :: values, ?_⟩
      have stepped : windowNtile total argument context = .ok (some (context.advance.ntile : Int), context.advance) := by
        unfold windowNtile
        rw [if_neg running]
      rw [postgresNtile, stepped, ok_bind]
      change (postgresNtile total context.advance rest >>= _) = _
      rw [ran]
      rfl

theorem closed_running (buckets active : Nat) (context : NtileContext) (closed : Closed total buckets active context) :
    context.ntile ≠ 0 := by
  rcases closed with ⟨_, _, _, _, _, rfl⟩ | ⟨_, _, _, _, _, rfl⟩
  · exact Nat.succ_ne_zero _
  · exact Nat.succ_ne_zero _

-- The bucket count that the first argument fixes.
def firstBuckets (rows : List NtileRow) : Option Int := (rows.filterMap NtileRow.argument).head?

-- The state row and PostgreSQL's context after so many rows.
def Agree (read : Nat) (state : NtileState) (context : NtileContext) : Prop :=
  (state = {} ∧ context = {}) ∨ ∃ buckets firstOrdinal active : Nat, 0 < buckets ∧ buckets ≤ int4Max ∧
    state = ⟨some (buckets : Int), some (firstOrdinal : Int)⟩ ∧ 0 < firstOrdinal ∧ firstOrdinal + active = read + 1 ∧
    Closed total buckets active context ∧ ¬ (total = bigintMax ∧ buckets = 1)

variable {total}

-- One row of a fold that has its bucket count.
theorem row_value {read buckets firstOrdinal active : Nat} {context : NtileContext} (positive : 0 < buckets)
    (small : buckets ≤ int4Max) (low : 0 < firstOrdinal) (counted : firstOrdinal + active = read + 1 + 1)
    (closed : Closed total buckets active context) (within : read + 1 ≤ total) (fits : total ≤ bigintMax)
    (above : ¬ (total = bigintMax ∧ buckets = 1)) :
    (windowNtileValue ((read : Int) + 1) total (some (buckets : Int)) (some (firstOrdinal : Int)) >>= toInteger) =
      .ok (some (context.ntile : Int)) := by
  have value := ntile_value total buckets positive active context closed (by omega) fits above ((read : Int) + 1) firstOrdinal
    (by omega) (by omega) (by omega)
  have bound := closed_bound total buckets positive active context closed (by omega)
  rw [value, ok_bind, toInteger, if_neg]
  rw [Option.any_some, decide_eq_true_eq]
  omega

-- The fold assigns what PostgreSQL does, and fails where it does.
theorem fold_postgres (rows : List NtileRow) (read : Nat) (state : NtileState) (context : NtileContext)
    (agree : Agree total read state context) (unset : state = {} → ¬ (total = bigintMax ∧ firstBuckets rows = some 1))
    (ordinals : ∀ index row, rows[index]? = some row → row.ordinal = ((read + index : Nat) : Int) + 1)
    (integers : ∀ row ∈ rows, ∀ buckets, row.argument = some buckets → buckets ≤ int4Max)
    (within : read + rows.length ≤ total) (fits : total ≤ bigintMax) :
    (∀ values, postgresNtile total context (rows.map NtileRow.argument) = .ok values →
      ∃ final, foldNtile total state rows = .ok ((rows.map NtileRow.ordinal).zip values, final)) ∧
    (∀ fault, postgresNtile total context (rows.map NtileRow.argument) = .error fault →
      ∃ other, foldNtile total state rows = .error other) := by
  induction rows generalizing read state context with
  | nil =>
      refine ⟨?_, ?_⟩
      · intro values ran
        exact ⟨state, rfl⟩
      · intro fault wrong
        cases wrong
  | cons row rest ih =>
      have ordinal : row.ordinal = (read : Int) + 1 := ordinals 0 row rfl
      have later (index : Nat) (other : NtileRow) (found : rest[index]? = some other) :
          other.ordinal = ((read + 1 + index : Nat) : Int) + 1 := by
        have here := ordinals (index + 1) other found
        rw [here]
        congr 2
        omega
      have others := fun other member => integers other (List.mem_cons_of_mem _ member)
      rw [List.length_cons] at within
      -- The rows behind this one, when it has a value and the states go on to agree.
      have onward (after : NtileContext) (value : Option Int) (stepped : windowNtile total row.argument context = .ok (value, after))
          (valued : (windowNtileValue row.ordinal total (state.next row).bucketCount (state.next row).firstOrdinal >>= toInteger) =
            .ok value) (agree : Agree total (read + 1) (state.next row) after)
          (unset : state.next row = {} → ¬ (total = bigintMax ∧ firstBuckets rest = some 1)) :
          (∀ values, postgresNtile total context ((row :: rest).map NtileRow.argument) = .ok values →
            ∃ final, foldNtile total state (row :: rest) = .ok (((row :: rest).map NtileRow.ordinal).zip values, final)) ∧
          (∀ fault, postgresNtile total context ((row :: rest).map NtileRow.argument) = .error fault →
            ∃ other, foldNtile total state (row :: rest) = .error other) := by
        obtain ⟨goes, fails⟩ := ih (read + 1) (state.next row) after agree unset later others (by omega)
        obtain ⟨raw, isRaw, isValue⟩ := bind_ok_iff.mp valued
        rw [List.map_cons, postgresNtile, stepped, ok_bind, foldNtile]
        simp only
        rw [isRaw, ok_bind, isValue, ok_bind]
        refine ⟨?_, ?_⟩
        · intro values ran
          obtain ⟨more, isMore, same⟩ := bind_ok_iff.mp ran
          cases same
          obtain ⟨final, folded⟩ := goes more isMore
          refine ⟨final, ?_⟩
          rw [folded]
          rfl
        · intro fault failed
          cases isRest : postgresNtile total after (rest.map NtileRow.argument) with
          | ok more =>
              rw [isRest] at failed
              cases failed
          | error wrong =>
              obtain ⟨other, folded⟩ := fails wrong isRest
              refine ⟨other, ?_⟩
              rw [folded]
              rfl
      rcases agree with ⟨rfl, rfl⟩ | ⟨buckets, firstOrdinal, active, positive, small, rfl, low, counted, closed, above⟩
      · cases isArgument : row.argument with
        | none =>
            have still : NtileState.next {} row = {} := by
              rw [NtileState.next, isArgument]
              rfl
            apply onward {} none
            · rw [isArgument]
              rfl
            · rw [still]
              rfl
            · exact .inl ⟨still, rfl⟩
            · intro _
              have first : firstBuckets (row :: rest) = firstBuckets rest := by
                rw [firstBuckets, List.filterMap_cons_none isArgument]
                rfl
              rw [← first]
              exact unset rfl
        | some argument =>
            have set : NtileState.next {} row = ⟨some argument, some row.ordinal⟩ := by
              rw [NtileState.next, isArgument]
              rfl
            by_cases none : argument ≤ 0
            · have failed : windowNtile total row.argument {} = .error (.failed "argument of ntile must be greater than zero") := by
                unfold windowNtile
                rw [if_pos rfl, isArgument]
                simp only
                rw [if_pos none]
              have folded : windowNtileValue row.ordinal total (some argument) (some row.ordinal) =
                  .error (.failed "division by zero") := by
                unfold windowNtileValue
                simp only
                rw [if_pos none]
              refine ⟨?_, ?_⟩
              · intro values ran
                rw [List.map_cons, postgresNtile, failed] at ran
                cases ran
              · intro fault _
                refine ⟨.failed "division by zero", ?_⟩
                rw [foldNtile, set, folded]
                rfl
            · obtain ⟨buckets, rfl⟩ := Int.eq_ofNat_of_zero_le (by omega : 0 ≤ argument)
              have positive : 0 < buckets := by omega
              have small : buckets ≤ int4Max := by
                have bound := integers row List.mem_cons_self _ isArgument
                omega
              have first : firstBuckets (row :: rest) = some (buckets : Int) := by
                rw [firstBuckets, List.filterMap_cons_some isArgument]
                rfl
              have above : ¬ (total = bigintMax ∧ buckets = 1) := by
                rintro ⟨full, rfl⟩
                exact unset rfl ⟨full, first⟩
              have closed := first_closed total buckets (by omega : 0 < total)
              apply onward (NtileContext.first total buckets).advance
                (some (((NtileContext.first total buckets).advance.ntile : Nat) : Int))
              · unfold windowNtile
                rw [if_pos rfl, isArgument]
                simp only
                rw [if_neg none]
                rfl
              · rw [set, ordinal]
                exact row_value positive small (Nat.succ_pos _) rfl closed (by omega) fits above
              · right
                refine ⟨buckets, read + 1, 1, positive, small, ?_, Nat.succ_pos _, rfl, closed, above⟩
                rw [set, ordinal]
                rfl
              · intro wrong
                rw [set] at wrong
                cases wrong
      · have kept : NtileState.next ⟨some (buckets : Int), some (firstOrdinal : Int)⟩ row =
            ⟨some (buckets : Int), some (firstOrdinal : Int)⟩ := rfl
        have next := advance_closed total buckets active context closed (by omega)
        apply onward context.advance (some (context.advance.ntile : Int))
        · unfold windowNtile
          rw [if_neg (closed_running total buckets active context closed)]
        · rw [kept, ordinal]
          exact row_value positive small low (by omega) next (by omega) fits above
        · right
          exact ⟨buckets, firstOrdinal, active + 1, positive, small, kept, low, by omega, next, above⟩
        · intro wrong
          rw [kept] at wrong
          cases wrong

-- With the largest count of rows and one bucket, the rows of a bucket and one
-- more are no bigint.
theorem fold_overflows (rows : List NtileRow) (full : total = bigintMax) (one : firstBuckets rows = some 1)
    (ordinals : ∀ row ∈ rows, 0 < row.ordinal ∧ row.ordinal ≤ bigintMax) :
    ∃ fault, foldNtile total {} rows = .error fault := by
  induction rows with
  | nil => cases one
  | cons row rest ih =>
      have others := fun other member => ordinals other (List.mem_cons_of_mem _ member)
      cases isArgument : row.argument with
      | none =>
          have first : firstBuckets (row :: rest) = firstBuckets rest := by
            rw [firstBuckets, List.filterMap_cons_none isArgument]
            rfl
          obtain ⟨fault, failed⟩ := ih (first ▸ one) others
          have still : NtileState.next {} row = {} := by
            rw [NtileState.next, isArgument]
            rfl
          refine ⟨fault, ?_⟩
          rw [foldNtile, still]
          change (foldNtile total {} rest >>= _) = _
          rw [failed]
          rfl
      | some argument =>
          rw [firstBuckets, List.filterMap_cons_some isArgument, List.head?_cons] at one
          obtain rfl := Option.some.inj one
          have set : NtileState.next {} row = ⟨some 1, some row.ordinal⟩ := by
            rw [NtileState.next, isArgument]
            rfl
          obtain ⟨low, high⟩ := ordinals row List.mem_cons_self
          have active : bigint (row.ordinal - row.ordinal) = .ok 0 := by
            rw [Int.sub_self]
            exact bigint_natural 0 (Nat.zero_le _)
          have next : bigint ((0 : Int) + 1) = .ok 1 := bigint_natural 1 (by decide)
          have share : bigintDiv (total : Int) 1 = .ok (total : Int) := by
            have whole := bigint_div_natural Nat.one_pos (Nat.le_of_eq full)
            rw [Nat.div_one] at whole
            exact whole
          refine ⟨.failed "bigint out of range", ?_⟩
          have failed : windowNtileValue row.ordinal total (some 1) (some row.ordinal) = .error (.failed "bigint out of range") := by
            unfold windowNtileValue
            simp only [show ¬ (1 : Int) ≤ 0 by decide, if_false]
            rw [active, ok_bind, next, ok_bind, share, ok_bind, bigint_over _ (by omega)]
            rfl
          rw [foldNtile, set, failed]
          rfl

end Fold

section Pages

variable (partition : NtilePartition)

def cursorAt (read : Nat) : WindowCursor := ⟨if read = 0 then none else some (read : Int)⟩

theorem row_ordinal {index : Nat} {row : NtileRow} (found : partition.rows[index]? = some row) :
    row.ordinal = (index : Int) + 1 ∧ index < partition.rows.length := by
  obtain ⟨inside, _⟩ := List.getElem?_eq_some_iff.mp found
  have mapped : (partition.rows.map NtileRow.ordinal)[index]? = some row.ordinal := by
    rw [List.getElem?_map, found]
    rfl
  rw [partition.ordinals, List.getElem?_map, List.getElem?_range inside] at mapped
  exact ⟨(Option.some.inj mapped).symm, inside⟩

theorem rows_behind (read : Nat) :
    (partition.rows.filter fun row => (cursorAt read).rowId.all fun last => decide (last < row.ordinal)) = partition.rows.drop read := by
  have behind (row : NtileRow) (ordinal : Nat) (at_ : row.ordinal = (ordinal : Int) + 1) :
      ((cursorAt read).rowId.all fun last => decide (last < row.ordinal)) = decide (read ≤ ordinal) := by
    unfold cursorAt
    by_cases start : read = 0
    · rw [if_pos start, start]
      rfl
    · rw [if_neg start, Option.all_some, at_, decide_eq_decide]
      omega
  have before : ((partition.rows.take read).filter fun row => (cursorAt read).rowId.all fun last => decide (last < row.ordinal)) = [] := by
    rw [List.filter_eq_nil_iff]
    intro row member
    obtain ⟨index, found⟩ := List.getElem?_of_mem member
    rw [List.getElem?_take] at found
    split at found
    · next low =>
      rw [behind row index (row_ordinal partition found).1, decide_eq_true_eq]
      omega
    · cases found
  have after : ((partition.rows.drop read).filter fun row => (cursorAt read).rowId.all fun last => decide (last < row.ordinal)) =
      partition.rows.drop read := by
    rw [List.filter_eq_self]
    intro row member
    obtain ⟨index, found⟩ := List.getElem?_of_mem member
    rw [List.getElem?_drop] at found
    rw [behind row (read + index) (row_ordinal partition found).1, decide_eq_true_eq]
    omega
  conv => lhs; rw [← List.take_append_drop read partition.rows]
  rw [List.filter_append, before, after, List.nil_append]

-- A page takes the next rows, and is complete when no row is left.
theorem evaluation_page (read : Nat) (budget : WorkBudget) :
    ∃ count, evaluationPage budget (evaluationSource partition (cursorAt read) budget.maxInputRows) = (partition.rows.drop read).take count ∧
      ((partition.rows.drop read).take count).length = count ∧ (read < partition.rows.length → 0 < count) ∧
      Whole count (rowsBytes ((partition.rows.drop read).take count)) budget.maxInputRows budget.maxInputBytes ∧
      ((evaluationSource partition (cursorAt read) budget.maxInputRows).length = count ↔ partition.rows.length ≤ read + count) := by
  obtain ⟨count, selected, filled, whole⟩ := page_prefix NtileRow.rowBytes (partition.rows.drop read)
    budget.maxInputBytes budget.inputRowsPositive
  have source : evaluationSource partition (cursorAt read) budget.maxInputRows =
      (partition.rows.drop read).take (budget.maxInputRows + 1) := by
    rw [evaluationSource, rows_behind]
  have rows := whole.1
  refine ⟨((partition.rows.drop read).take count).length, ?_, ?_, ?_, ?_, ?_⟩
  · rw [source, evaluationPage, List.take_take, Nat.min_eq_left (Nat.le_succ _)]
    refine selected.trans ?_
    rw [List.take_eq_take_iff, List.length_take]
    omega
  · rw [List.length_take, List.length_take]
    omega
  · intro more
    have some := filled (by
      intro nothing
      rw [List.drop_eq_nil_iff] at nothing
      omega)
    rw [List.length_take, List.length_drop]
    omega
  · have same : (partition.rows.drop read).take ((partition.rows.drop read).take count).length = (partition.rows.drop read).take count := by
      rw [List.take_eq_take_iff, List.length_take]
      omega
    rw [same]
    exact whole
  · rw [source]
    simp only [List.length_take, List.length_drop] at rows ⊢
    omega

structure Evaluated (read : Nat) (state : EvaluateState) : Prop where
  inside : read ≤ partition.rows.length
  cursor : state.cursor = cursorAt read
  folded : ∃ final, foldNtile partition.rows.length {} (partition.rows.take read) = .ok (state.tables.values, final) ∧
    state.tables.state = if read = 0 ∨ state.complete = true then none else some final
  finished : state.complete = true → read = partition.rows.length
  going : state.complete = false → read = 0 ∨ read < partition.rows.length

theorem page_ordinal (read count : Nat) (length : ((partition.rows.drop read).take count).length = count)
    (more : 0 < count) : (((partition.rows.drop read).take count).getLast?.map NtileRow.ordinal) = some ((read + count : Nat) : Int) := by
  have last : ((partition.rows.drop read).take count).getLast? = partition.rows[read + count - 1]? := by
    rw [List.getLast?_eq_getElem?, length, List.getElem?_take_of_lt (by omega), List.getElem?_drop]
    congr 1
    omega
  rw [List.length_take, List.length_drop] at length
  have inside : read + count - 1 < partition.rows.length := by omega
  rw [last, List.getElem?_eq_getElem inside, Option.map_some, (row_ordinal partition (List.getElem?_eq_getElem inside)).1]
  congr 1
  omega

-- One step folds the rows of its page behind those of the pages before it.
theorem evaluate_step {read : Nat} {state : EvaluateState} (evaluated : Evaluated partition read state)
    (going : state.complete = false) {budget : WorkBudget} (settings : Settings budget) :
    (∃ fault, evaluateStep partition state budget = .error fault ∧
      ∃ other, foldNtile partition.rows.length {} partition.rows = .error other) ∨
    ∃ after next, evaluateStep partition state budget = .ok after ∧ Evaluated partition next after ∧
      (after.complete = false → partition.rows.length - next < partition.rows.length - read) := by
  obtain ⟨final, folded, isState⟩ := evaluated.folded
  obtain ⟨count, selected, length, filled, whole, complete⟩ := evaluation_page partition read budget
  have fresh : state.cursor.rowId.isNone = decide (read = 0) := by
    rw [evaluated.cursor, cursorAt]
    by_cases start : read = 0
    · rw [if_pos start, decide_eq_true start]
      rfl
    · rw [if_neg start, decide_eq_false start]
      rfl
  have stored : (if decide (read = 0) = true then some {} else state.tables.state) = some final := by
    by_cases start : read = 0
    · rw [decide_eq_true start, if_pos rfl]
      rw [start, List.take_zero] at folded
      have none : {} = final := congrArg Prod.snd (Except.ok.inj folded)
      rw [none]
    · rw [decide_eq_false start, if_neg Bool.false_ne_true, isState, if_neg]
      rintro (wrong | wrong)
      · exact start wrong
      · rw [going] at wrong
        cases wrong
  have unstored : (decide (read = 0) && state.tables.state.isSome) = false := by
    by_cases start : read = 0
    · rw [isState, if_pos (.inl start), Option.isSome_none, Bool.and_false]
    · rw [decide_eq_false start, Bool.false_and]
  have known : (state.cursor.rowId.any fun last => !partition.rows.any fun row => decide (row.ordinal = last)) = false := by
    rw [evaluated.cursor, cursorAt]
    by_cases start : read = 0
    · rw [if_pos start]
      rfl
    · have inside : read - 1 < partition.rows.length := by
        have bound := evaluated.inside
        omega
      rw [if_neg start, Option.any_some, Bool.not_eq_false', List.any_eq_true]
      refine ⟨_, List.getElem_mem inside, decide_eq_true ?_⟩
      rw [(row_ordinal partition (List.getElem?_eq_getElem inside)).1]
      omega
  have primitive : runWindowEvaluate partition state.tables state.cursor budget =
      (foldNtile partition.rows.length final ((partition.rows.drop read).take count) >>= fun page =>
        .ok (windowInternalPage count (rowsBytes ((partition.rows.drop read).take count))
          (count + (if ((partition.rows.drop read).take count).isEmpty then 0 else 1) + (if decide (read = 0) then 1 else 0) +
            if decide (partition.rows.length ≤ read + count) then 1 else 0)
          (((partition.rows.drop read).take count).getLast?.map NtileRow.ordinal) (decide (partition.rows.length ≤ read + count)),
          ⟨if decide (partition.rows.length ≤ read + count) then none else some page.2, state.tables.values ++ page.1⟩)) := by
    have done : decide ((evaluationSource partition (cursorAt read) budget.maxInputRows).length = count) =
        decide (partition.rows.length ≤ read + count) := decide_eq_decide.mpr complete
    unfold runWindowEvaluate
    simp only [fresh]
    rw [unstored, refuse_ok.mpr rfl, ok_bind, windowI64Budget,
      refuse_ok.mpr (decide_eq_false (Nat.not_lt.mpr (Nat.le_of_lt settings.1))), ok_bind,
      refuse_ok.mpr (decide_eq_false (Nat.ne_of_lt settings.1)), ok_bind, windowI64Budget,
      refuse_ok.mpr (decide_eq_false (Nat.not_lt.mpr settings.2)), ok_bind, known, refuse_ok.mpr rfl, ok_bind]
    simp only [stored]
    rw [evaluated.cursor, selected]
    simp only [length, done]
    rfl
  have split : partition.rows.take (read + count) = partition.rows.take read ++ (partition.rows.drop read).take count := List.take_add
  have prefixFold := fold_append partition.rows.length {} (partition.rows.take read) ((partition.rows.drop read).take count)
  rw [← split, folded, ok_bind] at prefixFold
  cases isPage : foldNtile partition.rows.length final ((partition.rows.drop read).take count) with
  | error fault =>
      left
      refine ⟨fault, ?_, fault, ?_⟩
      · rw [evaluateStep, primitive, isPage]
        rfl
      · simp only [isPage] at prefixFold
        have all := fold_append partition.rows.length {} (partition.rows.take (read + count)) (partition.rows.drop (read + count))
        rw [List.take_append_drop, prefixFold] at all
        exact all
  | ok page =>
      right
      obtain ⟨values, next⟩ := page
      simp only [isPage] at prefixFold
      have within : read + count ≤ partition.rows.length := by
        rw [List.length_take, List.length_drop] at length
        have bound := evaluated.inside
        omega
      have lastRow : (((partition.rows.drop read).take count).getLast?.map NtileRow.ordinal) = (cursorAt (read + count)).rowId := by
        by_cases some : 0 < count
        · rw [page_ordinal partition read count length some, cursorAt, if_neg (by omega)]
        · have nothing : count = 0 := by omega
          have start : read = 0 := by
            rcases evaluated.going going with start | less
            · exact start
            · exact absurd (filled less) some
          rw [nothing, start]
          rfl
      have valid : (windowInternalPage count (rowsBytes ((partition.rows.drop read).take count))
          (count + (if ((partition.rows.drop read).take count).isEmpty then 0 else 1) + (if decide (read = 0) then 1 else 0) +
            if decide (partition.rows.length ≤ read + count) then 1 else 0)
          (cursorAt (read + count)).rowId (decide (partition.rows.length ≤ read + count))).validate state.cursor budget false =
          .ok () := by
        apply internal_page_valid _ _ _ _ _ _ _ whole
        · rw [cursorAt]
          by_cases start : read + count = 0
          · rw [if_pos start, decide_eq_false (by omega)]
            rfl
          · rw [if_neg start, decide_eq_true]
            · rfl
            · rcases evaluated.going going with first | less
              · omega
              · exact filled less
        · intro rowId isRow
          rw [cursorAt] at isRow
          by_cases start : read + count = 0
          · rw [if_pos start] at isRow
            cases isRow
          · rw [if_neg start] at isRow
            obtain rfl := Option.some.inj isRow
            omega
        · intro more
          have left := of_decide_eq_false more
          rcases evaluated.going going with start | less
          · apply filled
            omega
          · exact filled less
        · intro _
          rw [evaluated.cursor, cursorAt, cursorAt]
          by_cases start : read = 0
          · rw [if_pos start]
            split <;> rfl
          · rw [if_neg start, if_neg (by omega)]
            exact decide_eq_false (by omega)
      refine ⟨⟨⟨(cursorAt (read + count)).rowId⟩, ⟨if decide (partition.rows.length ≤ read + count) then none else some next,
        state.tables.values ++ values⟩, decide (partition.rows.length ≤ read + count)⟩, read + count, ?_, ?_, ?_⟩
      · rw [evaluateStep, primitive, isPage, ok_bind, ok_bind, lastRow]
        change (WindowPage.validate _ state.cursor budget false >>= _) = _
        rw [valid]
        rfl
      · refine ⟨within, rfl, ⟨next, prefixFold, ?_⟩, ?_, ?_⟩
        · by_cases done : partition.rows.length ≤ read + count
          · rw [decide_eq_true done, if_pos rfl, if_pos (.inr rfl)]
          · rw [decide_eq_false done, if_neg Bool.false_ne_true, if_neg]
            rintro (nothing | wrong)
            · have some := filled (by omega)
              omega
            · exact Bool.false_ne_true wrong
        · intro done
          have all := of_decide_eq_true done
          omega
        · intro more
          have left := of_decide_eq_false more
          right
          omega
      · intro more
        have left := of_decide_eq_false more
        have some : 0 < count := by
          rcases evaluated.going going with start | less
          · apply filled
            omega
          · exact filled less
        omega

end Pages

end Shiba.Window
