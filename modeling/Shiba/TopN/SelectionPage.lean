import Shiba.TopN.SelectionRun

set_option autoImplicit false

namespace Shiba.TopN

open Shiba.Execution Budget Fetch Portions Lexicographic

section

variable {Row Out Value : Type} (expressions : TopNExpressions Row Out Value) (machine : TopNMachine) (input : TopNInput Row)

-- The rows that a page reads from some place in the order on.
def pageAt (read : Nat) (budget : WorkBudget) : List (TopNEntry Row) :=
  boundedPage expressions budget.maxInputBytes (((ordered expressions input).drop read).take budget.maxInputRows)

section

variable (read : Nat) (budget : WorkBudget)

theorem page_whole :
    pageAt expressions input read budget = ((ordered expressions input).drop read).take (pageAt expressions input read budget).length ∧
      (read < (ordered expressions input).length → 0 < (pageAt expressions input read budget).length) ∧
      Whole (pageAt expressions input read budget).length (pageBytes expressions (pageAt expressions input read budget))
        budget.maxInputRows budget.maxInputBytes := by
  obtain ⟨count, selected, filled, whole⟩ := page_prefix (fun entry : TopNEntry Row => expressions.rowBytes entry.row)
    ((ordered expressions input).drop read) budget.maxInputBytes budget.inputRowsPositive
  have page : pageAt expressions input read budget = ((ordered expressions input).drop read).take count := selected
  refine ⟨?_, ?_, ?_⟩
  · rw [page, List.length_take, List.take_eq_take_iff]
    omega
  · intro more
    rw [page, List.length_take, List.length_drop]
    have some := filled (by
      intro nothing
      rw [List.drop_eq_nil_iff] at nothing
      omega)
    omega
  · rw [page]
    exact whole

theorem page_after :
    (ordered expressions input).take (read + (pageAt expressions input read budget).length) =
      (ordered expressions input).take read ++ pageAt expressions input read budget := by
  rw [List.take_add, ← (page_whole expressions input read budget).1]

theorem page_last {read : Nat} {budget : WorkBudget} (some : 0 < (pageAt expressions input read budget).length) :
    ((ordered expressions input).take (read + (pageAt expressions input read budget).length)).getLast? =
      (pageAt expressions input read budget).getLast? := by
  rw [page_after, List.getLast?_append_of_ne_nil _ (List.length_pos_iff.mp some)]

theorem page_member (entry : TopNEntry Row) (member : entry ∈ pageAt expressions input read budget) :
    entry ∈ input.entries := by
  rw [(page_whole expressions input read budget).1] at member
  exact ordered_member expressions input (List.mem_of_mem_drop (List.mem_of_mem_take member))

-- There is more exactly when the order goes on behind the page.
theorem more_rows (some : 0 < (pageAt expressions input read budget).length) :
    hasMore expressions input.entries (pageAt expressions input read budget) = true ↔
      read + (pageAt expressions input read budget).length < (ordered expressions input).length := by
  have present := List.length_pos_iff.mp some
  have last := List.getLast?_eq_some_getLast present
  generalize (pageAt expressions input read budget).getLast present = boundary at last
  have taken := (page_last expressions input some).trans last
  obtain ⟨earlier, split⟩ := List.getLast?_eq_some_iff.mp taken
  generalize read + (pageAt expressions input read budget).length = next at split
  have strict := ordered_strict expressions input
  have whole : ordered expressions input = earlier ++ boundary :: (ordered expressions input).drop next := by
    conv => lhs; rw [← List.take_append_drop next (ordered expressions input), split]
    rw [List.append_assoc]
    rfl
  rw [whole] at strict
  have rest := filter_after (order_weak TopNEntry.entryId expressions.keys) strict
  rw [← whole] at rest
  rw [hasMore, last]
  simp only [List.any_eq_true, Bool.and_eq_true, keyset_after_order, decide_eq_true_eq]
  constructor
  · intro found
    obtain ⟨entry, member, positive, after⟩ := found
    have listed := (ranked_member expressions entry).mpr ⟨member, positive⟩
    rw [ranked_ordered] at listed
    have behind := List.mem_filter.mpr ⟨listed, after⟩
    rw [rest] at behind
    have length := List.length_pos_of_mem behind
    rw [List.length_drop] at length
    omega
  · intro goes
    have nonempty : 0 < ((ordered expressions input).drop next).length := by
      rw [List.length_drop]
      omega
    obtain ⟨entry, behind⟩ := List.exists_mem_of_length_pos nonempty
    rw [← rest] at behind
    obtain ⟨listed, after⟩ := List.mem_filter.mp behind
    rw [← ranked_ordered] at listed
    obtain ⟨member, positive⟩ := (ranked_member expressions entry).mp listed
    exact ⟨entry, member, positive, after⟩

theorem scan_page :
    scanAt expressions machine input (read + (pageAt expressions input read budget).length) =
      scanned TopNEntry.multiplicity machine.withTies (scanAt expressions machine input read)
        (pageAt expressions input read budget) := by
  rw [scanAt, page_after, scanned_append]
  rfl

end

-- The boundary stands before or inside the page, and the page is strict.
theorem boundary_behind (limited : 0 < machine.limit) (read : Nat) (budget : WorkBudget) (boundary : TopNEntry Row)
    (later : List (TopNEntry Row))
    (split : ((scanAt expressions machine input read).boundary = some boundary ∧ pageAt expressions input read budget = later) ∨
      ∃ earlier, pageAt expressions input read budget = earlier ++ boundary :: later) :
    (later.any fun entry => !keysEqual expressions.keys entry boundary) = true ↔
      ∃ last, (pageAt expressions input read budget).getLast? = some last ∧
        keysEqual expressions.keys last boundary = false := by
  have strict := (ordered_strict expressions input).sublist
    (List.take_sublist (read + (pageAt expressions input read budget).length) (ordered expressions input))
  rw [page_after, List.pairwise_append] at strict
  apply crossed_last expressions boundary _ later strict.2.1
  rcases split with ⟨closed, same⟩ | inside
  · left
    refine ⟨same, ?_⟩
    intro entry member
    exact strict.2.2 boundary (boundary_read expressions machine input limited closed).2.1 entry member
  · exact .inr inside

-- The rows read so far decide the boundary, so that Enough asks about the last of them.
theorem enough_rows (limited : 0 < machine.limit) (read : Nat) :
    Enough expressions machine input read ↔
      (ordered expressions input).length ≤ read ∨
        (machine.withTies = false ∧ (scanAt expressions machine input read).limit = 0) ∨
        ∃ boundary last, (scanAt expressions machine input read).boundary = some boundary ∧
          ((ordered expressions input).take read).getLast? = some last ∧ keysEqual expressions.keys last boundary = false := by
  obtain ⟨_, limit⟩ := counters_at expressions machine input read
  have whole : copies TopNEntry.multiplicity (ordered expressions input) =
      copies TopNEntry.multiplicity ((ordered expressions input).take read) ++
        copies TopNEntry.multiplicity ((ordered expressions input).drop read) := by
    rw [← copies_append, List.take_append_drop]
  have same (reached : machine.offset + machine.limit ≤
      (copies TopNEntry.multiplicity ((ordered expressions input).take read)).length) :
      ((copies TopNEntry.multiplicity (ordered expressions input)).drop machine.offset)[machine.limit - 1]? =
        ((copies TopNEntry.multiplicity ((ordered expressions input).take read)).drop machine.offset)[machine.limit - 1]? := by
    rw [whole, List.drop_append_of_le_length (by omega), List.getElem?_append_left (by rw [List.length_drop]; omega)]
  constructor
  · intro enough
    rcases enough with all | ⟨reached, plain | ⟨boundary, last, fills, ends, apart⟩⟩
    · exact .inl all
    · right
      left
      refine ⟨plain, ?_⟩
      omega
    · right
      cases ties : machine.withTies with
      | false => exact .inl ⟨rfl, by omega⟩
      | true =>
          right
          refine ⟨boundary, last, ?_, ends, apart⟩
          rw [same reached] at fills
          rw [scanAt, ties, scanned_boundary _ _ _ _ limited]
          exact fills
  · intro enough
    rcases enough with all | ⟨plain, zero⟩ | ⟨boundary, last, closed, ends, apart⟩
    · exact .inl all
    · refine .inr ⟨by omega, .inl plain⟩
    · obtain ⟨ties, _, fills⟩ := boundary_read expressions machine input limited closed
      have reached := (boundary_known expressions machine input limited read ties).mp (by rw [closed]; rfl)
      refine .inr ⟨reached, .inr ⟨boundary, last, ?_, ends, apart⟩⟩
      rw [same reached]
      exact fills

-- What one run of the primitive reports and adds, from any place in the order.
structure PageRun [DecidableEq Out] (read : Nat) (budget : WorkBudget) (candidate after : List (Out × Nat))
    (selected : TopNSelection) : Prop where
  run : runTopnSelection expressions input.entries machine.withTies candidate (progressAt expressions machine input read) budget =
    .ok (selected, after)
  usage : selected.page.facts.usage =
    { inputRows := (pageAt expressions input read budget).length
      inputBytes := pageBytes expressions (pageAt expressions input read budget) }
  quiet : selected.page.facts.output = .none
  last : selected.page.lastRowId =
    lastRead expressions input (read + (pageAt expressions input read budget).length)
  complete : selected.page.complete = true ↔
    Enough expressions machine input (read + (pageAt expressions input read budget).length)
  progress : selected.progress = progressAt expressions machine input (read + (pageAt expressions input read budget).length)
  counted : Counted after
  added : (expand after).Perm (expand candidate ++
    (expand (taken TopNEntry.multiplicity (keysEqual expressions.keys) machine.withTies (scanAt expressions machine input read)
      (pageAt expressions input read budget))).map fun entry => expressions.output entry.row)

theorem page_runs [DecidableEq Out] (positive : 0 < machine.limit) {read : Nat}
    (fresh : read = 0 ∨ ¬ Enough expressions machine input read) {budget : WorkBudget}
    (fits : Fits budget)
    {candidate : List (Out × Nat)} (counted : Counted candidate) :
    ∃ selected after, PageRun expressions machine input read budget candidate after selected := by
  have source := source_rest expressions input.distinct read budget.maxInputRows
  rw [ranked_ordered] at source
  have reads : boundedPage expressions budget.maxInputBytes (selectionSource expressions input.entries
      (progressAt expressions machine input read).cursor.rowId budget.maxInputRows) = pageAt expressions input read budget := by
    change boundedPage expressions budget.maxInputBytes (selectionSource expressions input.entries
      (lastRead expressions input read) budget.maxInputRows) = _
    rw [lastRead, source]
    rfl
  have stored (boundary : TopNEntry Row) (closed : (scanAt expressions machine input read).boundary = some boundary) :
      boundary ∈ input.entries :=
    ordered_member expressions input (List.mem_of_mem_take (boundary_read expressions machine input positive closed).2.1)
  have plain (flat : machine.withTies = false) : (scanAt expressions machine input read).boundary = none := by
    rw [scanAt, flat]
    exact scanned_open _ _ _ rfl
  generalize cut : limited (progressAt expressions machine input read).offsetRemaining
    (progressAt expressions machine input read).limitRemaining (pageAt expressions input read budget) = rows
  generalize chosen : boundaryChoice machine.withTies (progressAt expressions machine input read) rows = choice
  generalize joined : tieBoundary input.entries choice = boundary
  obtain ⟨weights, marked, crossed⟩ := page_selected expressions input.distinct (page_member expressions input read budget) stored plain rfl cut.symm chosen.symm joined.symm rfl
  have scan := scan_page expressions machine input read budget
  change choice.map Prod.fst = (scanned TopNEntry.multiplicity machine.withTies (scanAt expressions machine input read)
    (pageAt expressions input read budget)).boundary.map TopNEntry.entryId at marked
  rw [← scan] at marked
  have crossing (last : TopNEntry Row)
      (closed : (scanAt expressions machine input (read + (pageAt expressions input read budget).length)).boundary = some last) :
      crossedTieBoundary expressions boundary rows = true ↔
        ∃ final, (pageAt expressions input read budget).getLast? = some final ∧ keysEqual expressions.keys final last = false := by
    rw [scan] at closed
    obtain ⟨later, split, same⟩ := crossed last closed
    rw [same]
    exact boundary_behind expressions machine input positive read budget last later split
  have offset : (progressAt expressions machine input read).offsetRemaining -
      ((pageAt expressions input read budget).map TopNEntry.multiplicity).sum =
      (scanAt expressions machine input (read + (pageAt expressions input read budget).length)).offset := by
    rw [scan, (scanned_counters _ _ _ _).1, copies_length]
    rfl
  have limit : (progressAt expressions machine input read).limitRemaining - (rows.map PageRow.available).sum =
      (scanAt expressions machine input (read + (pageAt expressions input read budget).length)).limit := by
    rw [scan, (scanned_counters _ _ _ _).2, ← cut, limited_rows, available_sum]
    rfl
  have ends : (pageAt expressions input read budget).getLast?.map TopNEntry.entryId =
      lastRead expressions input (read + (pageAt expressions input read budget).length) := by
    by_cases some : 0 < (pageAt expressions input read budget).length
    · rw [lastRead, page_last expressions input some]
    · have nothing := List.length_eq_zero_iff.mp (Nat.eq_zero_of_not_pos some)
      have start : read = 0 := by
        rcases fresh with start | more
        · exact start
        · exact absurd (.inl (Nat.not_lt.mp fun less => some ((page_whole expressions input read budget).2.1 less))) more
      rw [nothing, start]
      rfl
  have completed : (decide ((pageAt expressions input read budget).length = 0) ||
      (!machine.withTies && decide ((progressAt expressions machine input read).limitRemaining -
        (rows.map PageRow.available).sum = 0)) ||
      (machine.withTies && choice.isSome && crossedTieBoundary expressions boundary rows) ||
      !hasMore expressions input.entries (pageAt expressions input read budget)) = true ↔
      Enough expressions machine input (read + (pageAt expressions input read budget).length) := by
    rw [limit, enough_rows expressions machine input positive, Bool.or_eq_true, Bool.or_eq_true, Bool.or_eq_true, Bool.and_eq_true,
      Bool.and_eq_true, Bool.and_eq_true, decide_eq_true_eq, decide_eq_true_eq, Bool.not_eq_true', Bool.not_eq_true']
    by_cases some : 0 < (pageAt expressions input read budget).length
    · have onward := more_rows expressions input read budget some
      rw [page_last expressions input some]
      constructor
      · intro finished
        rcases finished with ((nothing | plain) | ⟨⟨ties, known⟩, crosses⟩) | last
        · omega
        · exact .inr (.inl plain)
        · right
          right
          have mapped : (choice.map Prod.fst).isSome = true := by
            rw [Option.isSome_map]
            exact known
          rw [marked, Option.isSome_map] at mapped
          obtain ⟨closing, closed⟩ := Option.isSome_iff_exists.mp mapped
          obtain ⟨final, ends, apart⟩ := (crossing closing closed).mp crosses
          exact ⟨closing, final, closed, ends, apart⟩
        · left
          rw [← Bool.not_eq_true, onward] at last
          omega
      · intro enough
        rcases enough with all | plain | ⟨closing, final, closed, ends, apart⟩
        · right
          rw [← Bool.not_eq_true, onward]
          omega
        · exact .inl (.inl (.inr plain))
        · left
          right
          have mapped : (choice.map Prod.fst).isSome = true := by
            rw [marked, closed]
            rfl
          rw [Option.isSome_map] at mapped
          exact ⟨⟨(boundary_read expressions machine input positive closed).1, mapped⟩,
            (crossing closing closed).mpr ⟨final, ends, apart⟩⟩
    · constructor
      · intro _
        left
        have read_all := (page_whole expressions input read budget).2.1
        omega
      · intro _
        exact .inl (.inl (.inl (by omega)))
  obtain ⟨collapsed, once⟩ := upserts_counted (selectedRows expressions machine.withTies boundary rows) []
    ⟨List.nodup_nil, fun _ wrong => (by cases wrong)⟩ (by
      intro item member
      obtain ⟨row, kept, rfl⟩ := List.mem_map.mp member
      exact of_decide_eq_true (List.mem_filter.mp kept).2)
  obtain ⟨whole, all⟩ := upserts_counted _ candidate counted collapsed.positive
  have nonempty : (decide ((pageAt expressions input read budget).length = 0) &&
      (!(decide ((pageAt expressions input read budget).length = 0) ||
        (!machine.withTies && decide ((progressAt expressions machine input read).limitRemaining -
          (rows.map PageRow.available).sum = 0)) ||
        (machine.withTies && choice.isSome && crossedTieBoundary expressions boundary rows) ||
        !hasMore expressions input.entries (pageAt expressions input read budget)) ||
        ((pageAt expressions input read budget).getLast?.map TopNEntry.entryId).isSome)) = false := by
    by_cases some : (pageAt expressions input read budget).length = 0
    · rw [decide_eq_true some, List.length_eq_zero_iff.mp some]
      rfl
    · rw [decide_eq_false some, Bool.false_and]
  have rowsFit : refuse (decide (bigintMax < budget.maxInputRows)) "TopN selection row budget exceeds bigint" = .ok () :=
    refuse_ok.mpr (decide_eq_false (Nat.not_lt.mpr fits.1))
  have bytesFit : refuse (decide (bigintMax < budget.maxInputBytes)) "TopN selection byte budget exceeds bigint" = .ok () :=
    refuse_ok.mpr (decide_eq_false (Nat.not_lt.mpr fits.2))
  have progress : (⟨⟨(pageAt expressions input read budget).getLast?.map TopNEntry.entryId⟩,
      (progressAt expressions machine input read).offsetRemaining -
        ((pageAt expressions input read budget).map TopNEntry.multiplicity).sum,
      (progressAt expressions machine input read).limitRemaining - (rows.map PageRow.available).sum,
      choice.map Prod.fst⟩ : SelectionProgress) =
      progressAt expressions machine input (read + (pageAt expressions input read budget).length) := by
    rw [offset, limit, ends, marked]
    rfl
  generalize done : (decide ((pageAt expressions input read budget).length = 0) ||
    (!machine.withTies && decide ((progressAt expressions machine input read).limitRemaining -
      (rows.map PageRow.available).sum = 0)) ||
    (machine.withTies && choice.isSome && crossedTieBoundary expressions boundary rows) ||
    !hasMore expressions input.entries (pageAt expressions input read budget)) = complete at completed nonempty
  refine ⟨⟨⟨⟨⟨(pageAt expressions input read budget).length, pageBytes expressions (pageAt expressions input read budget), 0, 0⟩,
      ((selectedRows expressions machine.withTies boundary rows).foldl upsert []).length, .none⟩,
      (pageAt expressions input read budget).getLast?.map TopNEntry.entryId, complete⟩,
      progressAt expressions machine input (read + (pageAt expressions input read budget).length)⟩, _,
    ⟨?_, rfl, rfl, ends, completed, rfl, whole, ?_⟩⟩
  · unfold runTopnSelection
    change (refuse _ "TopN selection row budget exceeds bigint" >>= fun _ =>
      refuse _ "TopN selection byte budget exceeds bigint" >>= _) = _
    rw [rowsFit, ok_bind, bytesFit, ok_bind]
    simp only [reads, cut, chosen, joined, done]
    rw [refuse_ok.mpr nonempty, ok_bind, ← progress]
    rfl
  · refine all.trans (List.Perm.append_left _ (once.trans ?_))
    change (expand (selectedRows expressions machine.withTies boundary rows)).Perm _
    rw [selected_expand, weights]
    exact List.Perm.refl _

end

end Shiba.TopN
