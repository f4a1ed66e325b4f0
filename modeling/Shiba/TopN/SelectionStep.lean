import Shiba.TopN.SelectionPage

set_option autoImplicit false

namespace Shiba.TopN

open Shiba.Execution Budget Fetch Portions Lexicographic

section

variable {Row Out Value : Type} [DecidableEq Out] (expressions : TopNExpressions Row Out Value) (machine : TopNMachine)
  (input : TopNInput Row) (streamId generationId : Nat) (afterDrain : AfterDrain)

-- The candidates of the rows read so far.
def Chosen (read : Nat) (candidate : List (Out × Nat)) : Prop :=
  Counted candidate ∧ (expand candidate).Perm ((expand (taken TopNEntry.multiplicity (keysEqual expressions.keys) machine.withTies
    ⟨machine.offset, machine.limit, none⟩ ((ordered expressions input).take read))).map fun entry => expressions.output entry.row)

structure Selecting (read : Nat) (state : SelectState Out) : Prop where
  fresh : read = 0 ∨ ¬ Enough expressions machine input read
  phase : state.continuation =
    some ⟨streamId, none, .select generationId (progressAt expressions machine input read) afterDrain⟩
  chosen : Chosen expressions machine input read state.candidate

-- A complete selection goes on to the first leg of the comparison.
def Finished (read : Nat) (state : SelectState Out) : Prop :=
  state.continuation = some ⟨streamId, none, .diff generationId .remove {} afterDrain⟩ ∧
    Chosen expressions machine input read state.candidate

omit [DecidableEq Out] in
theorem page_cursor (read : Nat) (fresh : read = 0 ∨ ¬ Enough expressions machine input read) (budget : WorkBudget) :
    (lastRead expressions input (read + (pageAt expressions input read budget).length) = none ↔
      (pageAt expressions input read budget).length = 0) ∧
    (¬ Enough expressions machine input (read + (pageAt expressions input read budget).length) →
      0 < (pageAt expressions input read budget).length) := by
  have filled := (page_whole expressions input read budget).2.1
  refine ⟨⟨?_, ?_⟩, ?_⟩
  · intro none
    by_contra some
    have positive := Nat.pos_of_ne_zero some
    rw [lastRead, page_last expressions input positive, Option.map_eq_none_iff, List.getLast?_eq_none_iff] at none
    rw [none] at some
    exact some rfl
  · intro nothing
    have start : read = 0 := by
      rcases fresh with start | more
      · exact start
      · exact absurd (.inl (by omega)) more
    rw [nothing, start]
    rfl
  · intro more
    by_contra nothing
    exact more (.inl (by omega))

theorem page_valid {read : Nat} (fresh : read = 0 ∨ ¬ Enough expressions machine input read) {budget : WorkBudget}
    {candidate after : List (Out × Nat)} {selected : TopNSelection}
    (run : PageRun expressions machine input read budget candidate after selected) :
    selected.page.validate (progressAt expressions machine input read).cursor budget false =
      refuse (!selected.page.complete && rowIdBelow
        (lastRead expressions input (read + (pageAt expressions input read budget).length)) (lastRead expressions input read))
        "TopN page moved its cursor backwards" := by
  have cursor := page_cursor expressions machine input read fresh budget
  have usage : selected.page.facts.usage.validate budget = .ok () := by
    rw [run.usage]
    exact (validate_whole _ _).mpr
      ⟨(page_whole expressions input read budget).2.2, Nat.zero_le _, .inl (Nat.zero_le _)⟩
  have rows : selected.page.facts.usage.inputRows = (pageAt expressions input read budget).length := by rw [run.usage]
  have facts : selected.page.facts.validate budget = .ok () := by
    rw [PrimitiveFacts.validate, usage, ok_bind, run.quiet, run.usage]
    rfl
  have page : selected.page.pageFacts.validate budget = .ok () := by
    change (selected.page.facts.usage.validate budget >>= _) = _
    rw [usage, ok_bind]
    change (refuse (decide (selected.page.facts.usage.inputRows = 0) && selected.page.lastRowId.isSome) _ >>= fun _ =>
      refuse (decide (0 < selected.page.facts.usage.inputRows) && selected.page.lastRowId.isNone && !selected.page.complete) _) = _
    rw [refuse_bind_ok, refuse_ok, rows, run.last]
    by_cases nothing : (pageAt expressions input read budget).length = 0
    · rw [cursor.1.mpr nothing, nothing]
      exact ⟨rfl, rfl⟩
    · obtain ⟨rowId, last⟩ := Option.ne_none_iff_exists'.mp (fun none => nothing (cursor.1.mp none))
      rw [last, decide_eq_false nothing]
      exact ⟨rfl, by rw [Option.isNone_some, Bool.and_false, Bool.false_and]⟩
  have positive : (selected.page.lastRowId.any fun rowId => decide (rowId ≤ 0)) = false := by
    rw [run.last]
    cases last : lastRead expressions input (read + (pageAt expressions input read budget).length) with
    | none => rfl
    | some rowId =>
        have above := last_read_positive expressions input _ rowId last
        exact decide_eq_false (by omega)
  have resumes : (!selected.page.complete && (decide (selected.page.facts.usage.inputRows = 0) || selected.page.lastRowId.isNone)) =
      false := by
    rw [rows, run.last]
    cases done : selected.page.complete with
    | true => rfl
    | false =>
        have some := cursor.2 (fun enough => by rw [run.complete.mpr enough] at done; cases done)
        obtain ⟨rowId, last⟩ := Option.ne_none_iff_exists'.mp (fun none => Nat.ne_of_gt some (cursor.1.mp none))
        rw [last, decide_eq_false (Nat.ne_of_gt some)]
        rfl
  rw [TopNPage.validate, facts, ok_bind, page, ok_bind, refuse_ok.mpr positive, ok_bind, refuse_ok.mpr resumes, ok_bind,
    run.last]
  have internal : validateNoExternalOutput selected.page.facts = .ok () := by
    rw [validateNoExternalOutput, run.quiet, run.usage]
    rfl
  simp only [Bool.false_eq_true, if_false, internal]
  change (refuse (!selected.page.complete && rowIdBelow
    (lastRead expressions input (read + (pageAt expressions input read budget).length)) (lastRead expressions input read))
    "TopN page moved its cursor backwards" >>= fun _ => Except.ok ()) = _
  cases !selected.page.complete && rowIdBelow
      (lastRead expressions input (read + (pageAt expressions input read budget).length)) (lastRead expressions input read) with
  | true => rfl
  | false => rfl

omit [DecidableEq Out] in
theorem chosen_next {read : Nat} {budget : WorkBudget} {candidate after : List (Out × Nat)}
    (chosen : Chosen expressions machine input read candidate) (counted : Counted after)
    (added : (expand after).Perm (expand candidate ++
      (expand (taken TopNEntry.multiplicity (keysEqual expressions.keys) machine.withTies (scanAt expressions machine input read)
        (pageAt expressions input read budget))).map fun entry => expressions.output entry.row)) :
    Chosen expressions machine input (read + (pageAt expressions input read budget).length) after := by
  refine ⟨counted, added.trans ?_⟩
  rw [page_after, taken_append, expand_append, List.map_append]
  exact chosen.2.append_right _

variable (limited : 0 < machine.limit) (stream : streamId ≠ 0) (generation : generationId ≠ 0)
  (target : validateAfterDrain streamId afterDrain = .ok ())

include limited stream generation target

omit [DecidableEq Out] in
theorem selection_action (read : Nat) :
    machine.action ⟨streamId, none, .select generationId (progressAt expressions machine input read) afterDrain⟩ =
      .ok (.selectCandidates generationId (progressAt expressions machine input read)) := by
  have continuation : machine.validateContinuation
      ⟨streamId, none, .select generationId (progressAt expressions machine input read) afterDrain⟩ = .ok () := by
    rw [TopNMachine.validateContinuation, refuse_bind_ok]
    refine ⟨decide_eq_false stream, ?_⟩
    simp only
    rw [validateGenerationId, refuse_ok.mpr (decide_eq_false generation), ok_bind,
      progress_valid expressions machine input limited, ok_bind, refuse_bind_ok, refuse_bind_ok]
    exact ⟨decide_eq_false (Nat.ne_of_gt limited), rfl, target⟩
  rw [TopNMachine.action, continuation]
  rfl

-- One page: the machine stores it, unless the cursor check rejects it.
theorem step_page {read : Nat} {state : SelectState Out}
    (selecting : Selecting expressions machine input streamId generationId afterDrain read state) {budget : WorkBudget}
    (fits : Fits budget) :
    ∃ complete after, (complete = true ↔ Enough expressions machine input (read + (pageAt expressions input read budget).length)) ∧
      selectStep expressions machine input state budget =
        (refuse (!complete && rowIdBelow
          (lastRead expressions input (read + (pageAt expressions input read budget).length)) (lastRead expressions input read))
          "TopN page moved its cursor backwards" >>= fun _ => .ok after) ∧
      (complete = true → Finished expressions machine input streamId generationId afterDrain
        (read + (pageAt expressions input read budget).length) after) ∧
      (complete = false → Selecting expressions machine input streamId generationId afterDrain
        (read + (pageAt expressions input read budget).length) after) := by
  obtain ⟨selected, candidate, page⟩ := page_runs expressions machine input limited selecting.fresh fits selecting.chosen.1
  have chosen := chosen_next expressions machine input selecting.chosen page.counted page.added
  have valid := page_valid expressions machine input selecting.fresh page
  have cursor := page_cursor expressions machine input read selecting.fresh budget
  have action := selection_action expressions machine input streamId generationId afterDrain limited stream generation target read
  have moves : validateSelectionProgress machine (progressAt expressions machine input read) selected.progress selected.page.complete =
      .ok () := by
    rw [page.progress]
    apply progress_moves expressions machine input limited
    · intro more
      have some := cursor.2 (fun enough => by rw [page.complete.mpr enough] at more; cases more)
      exact Option.ne_none_iff_exists'.mp (fun none => Nat.ne_of_gt some (cursor.1.mp none))
    · intro more plain
      by_contra full
      apply Bool.false_ne_true
      rw [← more]
      exact page.complete.mpr (.inr ⟨Nat.not_lt.mp full, .inl plain⟩)
  have agrees : (!selected.page.complete && decide (selected.progress.cursor.rowId ≠ selected.page.lastRowId)) = false := by
    rw [page.progress, page.last, Bool.and_eq_false_iff]
    exact .inr (decide_eq_false (not_not.mpr rfl))
  have progress : selected.progress.validate machine = .ok () := by
    rw [page.progress]
    exact progress_valid expressions machine input limited _
  refine ⟨selected.page.complete, ⟨some ⟨streamId, none, if selected.page.complete then .diff generationId .remove {} afterDrain
    else .select generationId selected.progress afterDrain⟩, candidate⟩, page.complete, ?_, ?_, ?_⟩
  · rw [selectStep, selecting.phase]
    simp only
    rw [action, ok_bind]
    simp only
    rw [page.run, ok_bind]
    simp only
    rw [TopNMachine.apply, action, ok_bind]
    simp only
    rw [TopNMachine.applySelection, valid]
    cases !selected.page.complete && rowIdBelow
        (lastRead expressions input (read + (pageAt expressions input read budget).length)) (lastRead expressions input read) with
    | true => rfl
    | false =>
        change ((selected.progress.validate machine >>= _) >>= _) = _
        rw [progress, ok_bind, refuse_ok.mpr agrees, ok_bind, moves]
        rfl
  · intro complete
    refine ⟨?_, chosen⟩
    simp only [complete, if_true]
  · intro more
    refine ⟨.inr ?_, ?_, chosen⟩
    · intro enough
      rw [page.complete.mpr enough] at more
      cases more
    · simp only [more, Bool.false_eq_true, if_false, page.progress]

end

end Shiba.TopN
