import Shiba.Execution.DiffTables
import Shiba.Execution.Usage

set_option autoImplicit false

namespace Shiba.Execution

open Weighted Portions Budget
open Shiba.Stream (StreamLimits resourcesFit)
open Shiba.TopN (DiffLeg)

-- The settings are integers, and the limits and the next sequence of a stream
-- are positive.
structure DiffRound.Offered (round : DiffRound) : Prop where
  inputRows : round.budget.maxInputRows < bigintMax
  outputRows : round.budget.maxOutputRows < bigintMax
  inputBytes : round.budget.maxInputBytes ≤ bigintMax
  outputBytes : round.budget.maxOutputBytes ≤ bigintMax
  targetRows : 0 < round.limits.targetChunkRows
  sequence : 0 < round.chunkSeq

section

variable {α : Type} (exceeds : α → Bool)

-- The rows before the first huge one are not huge.
theorem through_huge (page : List α) :
    (throughHuge exceeds page = page ∧ ∀ row ∈ page, exceeds row = false) ∨
      ∃ earlier last later, page = earlier ++ last :: later ∧ throughHuge exceeds page = earlier ++ [last] ∧
        exceeds last = true ∧ ∀ row ∈ earlier, exceeds row = false := by
  unfold throughHuge
  cases found : page.findIdx? exceeds with
  | none => exact .inl ⟨rfl, List.findIdx?_eq_none_iff.mp found⟩
  | some first =>
      right
      obtain ⟨inside, hit, before⟩ := List.findIdx?_eq_some_iff_getElem.mp found
      refine ⟨page.take first, page[first], page.drop (first + 1), ?_, ?_, hit, ?_⟩
      · rw [← List.drop_eq_getElem_cons inside, List.take_append_drop]
      · exact (List.take_append_getElem inside).symm
      · intro row member
        obtain ⟨index, short, rfl⟩ := List.mem_iff_getElem.mp member
        rw [List.length_take] at short
        rw [List.getElem_take]
        exact Bool.not_eq_true _ ▸ before index (by omega)

end

section

variable {Key Row : Type} [DecidableEq Key] {canonical : Row → Key}

omit [DecidableEq Key] in
-- A part of a whole page is a whole page.
theorem part_whole (octets : Row → Nat) (rows part : List (DiffRow Key Row)) (sub : part.Sublist rows) (maxRows maxBytes : Nat)
    (whole : Whole rows.length (diffBytes octets rows) maxRows maxBytes) :
    Whole part.length (diffBytes octets part) maxRows maxBytes := by
  obtain ⟨rowLimit, byteLimit⟩ := whole
  have fewer := sub.length_le
  have lighter : diffBytes octets part ≤ diffBytes octets rows :=
    (sub.map fun row : DiffRow Key Row => effectRowBytes octets row.outputRow).sum_le_sum fun _ _ => Nat.zero_le _
  refine ⟨by omega, ?_⟩
  by_cases nothing : part = []
  · left
    rw [nothing]
    exact Nat.zero_le _
  · have some := List.length_pos_iff.mpr nothing
    omega

variable (octets : Row → Nat) (leg : DiffLeg) (rowId : Option Int) (repeats : Bool) (tables : DiffTables Key Row) (round : DiffRound)

-- The rows that a leg has before it at its cursor, and those that its next page compares.
omit [DecidableEq Key] in
def behindRows : List (DiffRow Key Row) := (tables.iterated leg).filter fun row => cursorPredicate rowId repeats row.rowId

def pageRows : List (DiffRow Key Row) :=
  comparedRows leg tables (boundedPrefix octets round (diffSource leg rowId repeats tables round))

-- A page compares a prefix of what is before it, something whenever there is
-- something, up to the first row whose difference exceeds a weight.
structure PageRows (compared : List (DiffRow Key Row)) : Prop where
  first : ∃ rest, behindRows leg rowId repeats tables = compared ++ rest ∧
    ((diffSource leg rowId repeats tables round).length =
        (boundedPrefix octets round (diffSource leg rowId repeats tables round)).length ∧
      (boundedPrefix octets round (diffSource leg rowId repeats tables round)).length = compared.length ↔ rest = [])
  filled : behindRows leg rowId repeats tables ≠ [] → compared ≠ []
  whole : Whole compared.length (diffBytes octets compared) (maxDiffRows round) (maxDiffBytes round)
  plain : (compared.any fun row => huge (tables.delta leg row)) = false → ∀ row ∈ compared, huge (tables.delta leg row) = false
  revisited : (compared.any fun row => huge (tables.delta leg row)) = true → ∃ earlier last, compared = earlier ++ [last] ∧
    huge (tables.delta leg last) = true ∧ ∀ row ∈ earlier, huge (tables.delta leg row) = false

variable (offered : round.Offered)

include offered

theorem max_rows_positive : 0 < maxDiffRows round :=
  Nat.lt_min.mpr ⟨Nat.lt_min.mpr ⟨round.budget.inputRowsPositive, round.budget.outputRowsPositive⟩, offered.targetRows⟩

theorem page_rows : PageRows octets leg rowId repeats tables round (pageRows octets leg rowId repeats tables round) := by
  obtain ⟨count, selected, filled, whole⟩ := page_prefix (fun row : DiffRow Key Row => effectRowBytes octets row.outputRow)
    (behindRows leg rowId repeats tables) (maxDiffBytes round) (max_rows_positive round offered)
  have bounded : boundedPrefix octets round (diffSource leg rowId repeats tables round) =
      (behindRows leg rowId repeats tables).take count := by
    unfold boundedPrefix diffSource
    rw [List.take_take, Nat.min_eq_left (Nat.le_succ _)]
    exact selected
  have some := max_rows_positive round offered
  have rowLimit := whole.1
  have source : (diffSource leg rowId repeats tables round).length =
      min (maxDiffRows round + 1) (behindRows leg rowId repeats tables).length := List.length_take
  rw [List.length_take] at rowLimit
  unfold pageRows comparedRows
  rcases through_huge (fun row => huge (tables.delta leg row))
      (boundedPrefix octets round (diffSource leg rowId repeats tables round)) with
    ⟨all, plain⟩ | ⟨earlier, last, later, split, cut, hit, before⟩
  · rw [all]
    refine ⟨⟨(behindRows leg rowId repeats tables).drop count, ?_, ?_⟩, ?_, ?_, fun _ => plain, ?_⟩
    · rw [bounded, List.take_append_drop]
    · rw [source, bounded, List.length_take, List.drop_eq_nil_iff]
      omega
    · intro present nothing
      have positive := filled present
      rw [bounded, List.take_eq_nil_iff] at nothing
      rcases nothing with zero | empty
      · omega
      · exact present empty
    · rw [bounded]
      exact whole
    · intro some
      obtain ⟨row, member, hit⟩ := List.any_eq_true.mp some
      rw [plain row member] at hit
      cases hit
  · rw [cut]
    have shape : behindRows leg rowId repeats tables =
        (earlier ++ [last]) ++ (later ++ (behindRows leg rowId repeats tables).drop count) := by
      conv => lhs; rw [← List.take_append_drop count (behindRows leg rowId repeats tables), ← bounded, split]
      simp only [List.append_assoc, List.cons_append, List.nil_append]
    have found : ((earlier ++ [last]).any fun row => huge (tables.delta leg row)) = true :=
      List.any_eq_true.mpr ⟨last, List.mem_append_right _ (List.mem_singleton_self _), hit⟩
    refine ⟨⟨_, shape, ?_⟩, fun _ nothing => List.append_ne_nil_of_right_ne_nil _ (List.cons_ne_nil _ _) nothing, ?_, ?_, ?_⟩
    · have lengths := congrArg List.length split
      rw [bounded, List.length_take, List.length_append, List.length_cons] at lengths
      rw [source, bounded, List.length_take, List.length_append, List.length_singleton, List.append_eq_nil_iff,
        ← List.length_eq_zero_iff, List.drop_eq_nil_iff]
      omega
    · apply part_whole octets ((behindRows leg rowId repeats tables).take count) _ _ _ _ whole
      rw [← bounded, split]
      exact List.Sublist.append_left (List.Sublist.cons_cons _ (List.nil_sublist _)) _
    · intro wrong
      rw [found] at wrong
      cases wrong
    · intro _
      exact ⟨earlier, last, rfl, hit, before⟩

end

section

variable {Key Row : Type} [DecidableEq Key] {canonical : Row → Key} {tables : DiffTables Key Row} (valid : tables.Valid canonical)
  {leg : DiffLeg} {compared : List (DiffRow Key Row)}

theorem slice_positive (delta : Int) (positive : 0 < delta) : 0 < sliceOf delta := by
  unfold sliceOf bigintMax
  omega

theorem slice_le (delta : Int) (positive : 0 < delta) : (sliceOf delta : Int) ≤ delta ∧ sliceOf delta ≤ bigintMax := by
  unfold sliceOf bigintMax
  omega

theorem slice_whole (delta : Int) (positive : 0 < delta) (fits : huge delta = false) : (sliceOf delta : Int) = delta := by
  have below := of_decide_eq_false fits
  unfold sliceOf
  omega

include valid

variable (picked : compared.Sublist (tables.iterated leg))

include picked

theorem picked_sliced : Sliced leg tables (differencesOf leg tables compared) := by
  have chosen : (differingRows leg tables compared).Sublist (tables.iterated leg) := List.filter_sublist.trans picked
  have differs (row : DiffRow Key Row) (member : row ∈ differingRows leg tables compared) : 0 < tables.delta leg row :=
    of_decide_eq_true (List.mem_filter.mp member).2
  refine ⟨?_, ?_, ?_, ?_⟩
  · intro difference inside
    obtain ⟨row, member, rfl⟩ := List.mem_map.mp inside
    exact chosen.subset member
  · unfold differencesOf
    rw [List.pairwise_map]
    exact (valid.iterated leg).rising.sublist chosen
  · intro difference inside
    obtain ⟨row, member, rfl⟩ := List.mem_map.mp inside
    exact slice_positive _ (differs row member)
  · intro difference inside
    obtain ⟨row, member, rfl⟩ := List.mem_map.mp inside
    exact (slice_le _ (differs row member)).1

-- The slice of a compared row is its difference up to one weight.
theorem slice_compared (row : DiffRow Key Row) (member : row ∈ compared) :
    weight (keyed (differencesOf leg tables compared)) row.outputKey =
      if 0 < tables.delta leg row then (sliceOf (tables.delta leg row) : Int) else 0 := by
  have sliced := picked_sliced valid picked
  by_cases differs : 0 < tables.delta leg row
  · rw [if_pos differs]
    have inside : (row, sliceOf (tables.delta leg row)) ∈ differencesOf leg tables compared :=
      List.mem_map_of_mem (List.mem_filter.mpr ⟨member, decide_eq_true differs⟩)
    exact keyed_member _ (slices_distinct valid sliced) inside
  · rw [if_neg differs]
    apply keyed_absent
    intro difference inside same
    obtain ⟨other, otherMember, rfl⟩ := List.mem_map.mp inside
    obtain ⟨otherCompared, hit⟩ := List.mem_filter.mp otherMember
    have equal := same_by_key _ (valid.iterated leg).distinct other row (picked.subset otherCompared) (picked.subset member) same
    rw [equal] at hit
    exact differs (of_decide_eq_true hit)

theorem slice_elsewhere (row : DiffRow Key Row) (member : row ∈ tables.iterated leg) (apart : row ∉ compared) :
    weight (keyed (differencesOf leg tables compared)) row.outputKey = 0 := by
  apply keyed_absent
  intro difference inside same
  obtain ⟨other, otherMember, rfl⟩ := List.mem_map.mp inside
  have otherCompared := (List.mem_filter.mp otherMember).1
  have equal := same_by_key _ (valid.iterated leg).distinct other row (picked.subset otherCompared) member same
  rw [equal] at otherCompared
  exact apart otherCompared

end

section

variable {Key Row : Type} [DecidableEq Key] {canonical : Row → Key} (words : DiffWords) (octets : Row → Nat) (leg : DiffLeg)
  (rowId : Option Int) (repeats : Bool) (tables : DiffTables Key Row) (round : DiffRound)

omit [DecidableEq Key] in
theorem bytes_positive (rows : List (DiffRow Key Row)) (present : rows ≠ []) : 0 < diffBytes octets rows := by
  cases rows with
  | nil => exact absurd rfl present
  | cons row rest =>
      change 0 < octets row.outputRow + 8 + _
      omega

-- The result of a page without its checks.
def pageOutcome (compared : List (DiffRow Key Row)) (complete : Bool) : DiffOutcome Key Row where
  facts := {
    usage := {
      inputRows := compared.length
      inputBytes := diffBytes octets compared
      outputRows := (differingRows leg tables compared).length
      outputBytes := diffBytes octets (differingRows leg tables compared) }
    stateRows := (differingRows leg tables compared).length
    output := if (differingRows leg tables compared).length = 0 then .none else .data round.chunkSeq }
  lastRowId := compared.getLast?.map DiffRow.rowId
  complete := complete
  repeatCursor := compared.any fun row => huge (tables.delta leg row)
  tables := (mutate leg tables (differencesOf leg tables compared)).1
  payload := payloadOf leg (differencesOf leg tables compared)

def pageComplete : Bool :=
  decide ((diffSource leg rowId repeats tables round).length =
      (boundedPrefix octets round (diffSource leg rowId repeats tables round)).length) &&
    decide ((boundedPrefix octets round (diffSource leg rowId repeats tables round)).length =
      (pageRows octets leg rowId repeats tables round).length) &&
    !(pageRows octets leg rowId repeats tables round).any fun row => huge (tables.delta leg row)

variable (valid : tables.Valid canonical) (offered : round.Offered)

variable {round}

omit [DecidableEq Key] in
theorem behind_sublist : (behindRows leg rowId repeats tables).Sublist (tables.iterated leg) := List.filter_sublist

include offered

theorem page_picked : (pageRows octets leg rowId repeats tables round).Sublist (tables.iterated leg) := by
  obtain ⟨rest, split, _⟩ := (page_rows octets leg rowId repeats tables round offered).first
  apply List.Sublist.trans _ (behind_sublist leg rowId repeats tables)
  rw [split]
  exact List.sublist_append_left _ _

include valid

omit [DecidableEq Key] valid offered in
theorem i64_budget_ok (value : Nat) (name : String) (fits : value ≤ bigintMax) : i64Budget value name = .ok () :=
  refuse_ok.mpr (decide_eq_false (Nat.not_lt.mpr fits))

omit [DecidableEq Key] valid offered in
theorem append_diff_ok (limits : StreamLimits) (rows bytes : Nat) (some : 0 < rows) (weighs : 0 < bytes)
    (whole : Whole rows bytes limits.targetChunkRows limits.targetChunkBytes) : appendDiff limits rows bytes = .ok () := by
  obtain ⟨rowLimit, byteLimit⟩ := whole
  have fits : resourcesFit limits .data rows bytes = true := by
    unfold resourcesFit
    rw [Bool.and_eq_true, Bool.and_eq_true, Bool.and_eq_true, Bool.or_eq_true, decide_eq_true_eq, decide_eq_true_eq,
      decide_eq_true_eq, decide_eq_true_eq, decide_eq_true_eq]
    exact ⟨⟨⟨some, weighs⟩, rowLimit⟩, byteLimit⟩
  have full : (decide (rows = 0) || decide (bytes = 0)) = false := by
    rw [decide_eq_false (Nat.ne_of_gt some), decide_eq_false (Nat.ne_of_gt weighs)]
    rfl
  unfold appendDiff
  rw [refuse_ok.mpr full, ok_bind, if_pos fits]
  rfl

-- Every page goes through.
theorem diff_ok : runDiff words octets leg rowId repeats tables round =
    .ok (pageOutcome octets leg tables round (pageRows octets leg rowId repeats tables round)
      (pageComplete octets leg rowId repeats tables round)) := by
  have picked := page_picked octets leg rowId repeats tables offered
  have whole := part_whole octets _ (differingRows leg tables (pageRows octets leg rowId repeats tables round)) List.filter_sublist _ _
    (page_rows octets leg rowId repeats tables round offered).whole
  have sliced := picked_sliced valid picked
  have changed := (mutated valid sliced).2.2.2
  have count : (differencesOf leg tables (pageRows octets leg rowId repeats tables round)).length =
      (differingRows leg tables (pageRows octets leg rowId repeats tables round)).length := List.length_map _
  have laid : (payloadOf leg (differencesOf leg tables (pageRows octets leg rowId repeats tables round))).length =
      (differingRows leg tables (pageRows octets leg rowId repeats tables round)).length := (List.length_map _).trans count
  have notAll : maxDiffRows round ≠ bigintMax := by
    have less := offered.inputRows
    unfold maxDiffRows
    omega
  have inputBytes := offered.inputBytes
  have outputBytes := offered.outputBytes
  unfold pageRows at changed count laid whole
  unfold runDiff
  rw [i64_budget_ok _ _ (Nat.le_of_lt offered.inputRows), ok_bind, i64_budget_ok _ _ (Nat.le_of_lt offered.outputRows), ok_bind,
    refuse_ok.mpr (decide_eq_false notAll), ok_bind, i64_budget_ok _ _ inputBytes, ok_bind, i64_budget_ok _ _ outputBytes,
    ok_bind]
  simp only
  rw [changed, laid, count]
  unfold pageOutcome pageComplete pageRows
  by_cases nothing : (differingRows leg tables
      (comparedRows leg tables (boundedPrefix octets round (diffSource leg rowId repeats tables round)))).length = 0
  · rw [if_pos nothing, if_pos nothing]
    have still : (decide ((differingRows leg tables
          (comparedRows leg tables (boundedPrefix octets round (diffSource leg rowId repeats tables round)))).length ≠ 0) ||
        decide ((differingRows leg tables
          (comparedRows leg tables (boundedPrefix octets round (diffSource leg rowId repeats tables round)))).length ≠ 0)) = false := by
      rw [nothing]
      rfl
    rw [refuse_ok.mpr still]
    rfl
  · rw [if_neg nothing, if_neg nothing]
    have some := Nat.pos_of_ne_zero nothing
    have present := List.length_pos_iff.mp some
    have limits : Whole _ _ round.limits.targetChunkRows round.limits.targetChunkBytes :=
      ⟨Nat.le_trans whole.1 (Nat.min_le_right _ _), whole.2.imp (fun fits => Nat.le_trans fits (Nat.min_le_right _ _)) id⟩
    rw [append_diff_ok round.limits _ _ some (bytes_positive octets _ present) limits]
    have consistent : ∀ emitted : Nat, (decide (emitted ≠ emitted) || decide (emitted ≠ emitted)) = false := by
      intro emitted
      rw [decide_eq_false (not_not_intro rfl)]
      rfl
    rw [refuse_ok.mpr (consistent _)]
    rfl

end

-- The check of a cursor in both operators: a positive row, and one at all under a repeat.
theorem cursor_checks {rowId : Option Int} {repeats : Bool} (positive : ∀ last, rowId = some last → 0 < last)
    (resumes : repeats = true → rowId.isSome) :
    (rowId.any fun last => decide (last ≤ 0)) = false ∧ (repeats && rowId.isNone) = false := by
  cases rowId with
  | none =>
      refine ⟨rfl, ?_⟩
      cases repeats with
      | false => rfl
      | true => exact absurd (resumes rfl) Bool.false_ne_true
  | some last => exact ⟨decide_eq_false (Int.not_le.mpr (positive last rfl)), Bool.and_false repeats⟩

-- What the checks of both operators ask of a page and the cursor before it.
structure PageAccepted (facts : PrimitiveFacts) (lastRowId : Option Int) (complete repeatCursor : Bool) (rowId : Option Int)
    (repeats : Bool) (budget : WorkBudget) : Prop where
  measured : facts.validate budget = .ok ()
  page : PageFacts.validate ⟨facts.usage, lastRowId, complete⟩ budget = .ok ()
  positive : (lastRowId.any fun rowId => decide (rowId ≤ 0)) = false
  residual : (repeatCursor && (complete || lastRowId.isNone)) = false
  progress : (!complete && (decide (facts.usage.inputRows = 0) || lastRowId.isNone)) = false
  forward : (!complete && (rowIdBelow lastRowId rowId || (decide (lastRowId = rowId) && !repeats))) = false
  data : facts.output.isFrontier = false
  effects : decide (facts.usage.inputRows < facts.usage.outputRows) = false

section

variable {Key Row : Type} [DecidableEq Key] {canonical : Row → Key} (octets : Row → Nat) (leg : DiffLeg) (rowId : Option Int)
  (repeats : Bool) (tables : DiffTables Key Row) (round : DiffRound)

-- A row behind a cursor does not lie before it, and not on it without a repeat.
theorem behind_forward (identity : Int) (behind : cursorPredicate rowId repeats identity = true) :
    (rowIdBelow (some identity) rowId || (decide (some identity = rowId) && !repeats)) = false := by
  cases rowId with
  | none =>
      rw [decide_eq_false (Option.some_ne_none identity)]
      rfl
  | some last =>
      cases repeats with
      | true =>
          have reached : last ≤ identity := of_decide_eq_true behind
          change (decide (identity < last) || (_ && !true)) = false
          rw [decide_eq_false (Int.not_lt.mpr reached), Bool.not_true, Bool.and_false]
          rfl
      | false =>
          have passed : last < identity := of_decide_eq_true behind
          have other : some identity ≠ some last := by
            intro same
            rw [Option.some.inj same] at passed
            omega
          change (decide (identity < last) || _) = false
          rw [decide_eq_false (Int.not_lt.mpr (Int.le_of_lt passed)), decide_eq_false other]
          rfl

variable (valid : tables.Valid canonical) (offered : round.Offered)

include offered

-- A page that is not complete compared something.
theorem partly_present (partly : pageComplete octets leg rowId repeats tables round = false) :
    pageRows octets leg rowId repeats tables round ≠ [] := by
  intro nothing
  have spec := page_rows octets leg rowId repeats tables round offered
  obtain ⟨rest, split, ends⟩ := spec.first
  have empty : behindRows leg rowId repeats tables = [] := by
    by_contra present
    exact spec.filled present nothing
  rw [empty, nothing] at split
  obtain ⟨source, bounded⟩ := ends.mpr (List.nil_eq_append_iff.mp split).2
  unfold pageComplete at partly
  rw [decide_eq_true source, decide_eq_true bounded, nothing] at partly
  cases partly

include valid

theorem page_accepted : PageAccepted
    (pageOutcome octets leg tables round (pageRows octets leg rowId repeats tables round)
      (pageComplete octets leg rowId repeats tables round)).facts
    ((pageRows octets leg rowId repeats tables round).getLast?.map DiffRow.rowId)
    (pageComplete octets leg rowId repeats tables round)
    ((pageRows octets leg rowId repeats tables round).any fun row => huge (tables.delta leg row)) rowId repeats round.budget := by
  have spec := page_rows octets leg rowId repeats tables round offered
  have picked := page_picked octets leg rowId repeats tables offered
  obtain ⟨rest, split, ends⟩ := spec.first
  have whole := spec.whole
  have part := part_whole octets _ (differingRows leg tables (pageRows octets leg rowId repeats tables round)) List.filter_sublist _ _
    whole
  have input : Whole _ _ round.budget.maxInputRows round.budget.maxInputBytes :=
    ⟨Nat.le_trans whole.1 (Nat.le_trans (Nat.min_le_left _ _) (Nat.min_le_left _ _)),
      whole.2.imp (fun fits => Nat.le_trans fits (Nat.le_trans (Nat.min_le_left _ _) (Nat.min_le_left _ _))) id⟩
  have output : Whole _ _ round.budget.maxOutputRows round.budget.maxOutputBytes :=
    ⟨Nat.le_trans part.1 (Nat.le_trans (Nat.min_le_left _ _) (Nat.min_le_right _ _)),
      part.2.imp (fun fits => Nat.le_trans fits (Nat.le_trans (Nat.min_le_left _ _) (Nat.min_le_right _ _))) id⟩
  have usage : (pageOutcome octets leg tables round (pageRows octets leg rowId repeats tables round)
      (pageComplete octets leg rowId repeats tables round)).facts.usage.validate round.budget = .ok () :=
    (validate_whole _ _).mpr ⟨input, output⟩
  have resumes := partly_present octets leg rowId repeats tables round offered
  have last (present : pageRows octets leg rowId repeats tables round ≠ []) :
      ∃ row ∈ behindRows leg rowId repeats tables,
        (pageRows octets leg rowId repeats tables round).getLast?.map DiffRow.rowId = some row.rowId := by
    refine ⟨_, ?_, congrArg (Option.map DiffRow.rowId) (List.getLast?_eq_some_getLast present)⟩
    rw [split]
    exact List.mem_append_left _ (List.getLast_mem present)
  have inside (row : DiffRow Key Row) (member : row ∈ behindRows leg rowId repeats tables) :
      0 < row.rowId ∧ cursorPredicate rowId repeats row.rowId = true :=
    ⟨(valid.iterated leg).positive row (List.mem_filter.mp member).1, (List.mem_filter.mp member).2⟩
  have measured : (pageOutcome octets leg tables round (pageRows octets leg rowId repeats tables round)
      (pageComplete octets leg rowId repeats tables round)).facts.validate round.budget = .ok () := by
    unfold PrimitiveFacts.validate
    rw [usage, ok_bind]
    unfold pageOutcome
    by_cases nothing : (differingRows leg tables (pageRows octets leg rowId repeats tables round)).length = 0
    · simp only [nothing, if_true]
      rfl
    · simp only [nothing, if_false]
      rw [refuse_ok.mpr (decide_eq_false (Nat.ne_of_gt offered.sequence)), ok_bind]
      rfl
  by_cases nothing : pageRows octets leg rowId repeats tables round = []
  · have complete : pageComplete octets leg rowId repeats tables round = true := by
      by_contra partly
      exact resumes (Bool.eq_false_iff.mpr partly) nothing
    rw [nothing, complete]
    rw [nothing, complete] at measured usage
    refine ⟨measured, ?_, rfl, rfl, rfl, rfl, rfl, rfl⟩
    unfold PageFacts.validate
    rw [usage]
    rfl
  · obtain ⟨row, member, isLast⟩ := last nothing
    obtain ⟨positive, behind⟩ := inside row member
    have count := List.length_pos_iff.mpr nothing
    rw [isLast]
    refine ⟨measured, ?_, ?_, ?_, ?_, ?_, ?_, ?_⟩
    · unfold PageFacts.validate
      rw [usage, ok_bind]
      change (refuse (decide ((pageRows octets leg rowId repeats tables round).length = 0) && _) _ >>= fun _ => refuse (_ && false && _) _) = _
      rw [decide_eq_false (Nat.ne_of_gt count), Bool.and_false]
      rfl
    · exact decide_eq_false (Int.not_le.mpr positive)
    · rw [Option.isNone_some, Bool.or_false]
      unfold pageComplete
      rw [Bool.and_comm, Bool.and_assoc, Bool.not_and_self, Bool.and_false]
    · change (!_ && (decide ((pageRows octets leg rowId repeats tables round).length = 0) || false)) = false
      rw [decide_eq_false (Nat.ne_of_gt count), Bool.or_false, Bool.and_false]
    · rw [behind_forward rowId repeats row.rowId behind, Bool.and_false]
    · unfold pageOutcome
      simp only
      split <;> rfl
    · exact decide_eq_false (Nat.not_lt.mpr (List.length_filter_le _ _))

end

end Shiba.Execution
