import Shiba.TopN.SelectionStep

set_option autoImplicit false

namespace Shiba.TopN

open Shiba.Execution Budget Fetch Portions Lexicographic

section

variable {Row Out Value : Type} (expressions : TopNExpressions Row Out Value) (machine : TopNMachine) (input : TopNInput Row)

theorem ordered_together : Together (keysEqual expressions.keys) (ordered expressions input) := by
  have strict := ordered_strict expressions input
  generalize ordered expressions input = entries at strict
  induction entries with
  | nil => trivial
  | cons boundary rest ih =>
      rw [List.pairwise_cons] at strict
      refine ⟨?_, ih strict.2⟩
      apply strict.2.imp_of_mem
      intro first later inside _ before same
      exact keys_equal_between expressions.keys (strict.1 first inside) before same

-- What the query takes of the order is what a scan of all its rows takes.
theorem fetch_taken (limited : 0 < machine.limit) :
    fetchFirst TopNEntry.multiplicity (keysEqual expressions.keys) machine.withTies machine.offset machine.limit
        (ordered expressions input) =
      expand (taken TopNEntry.multiplicity (keysEqual expressions.keys) machine.withTies
        ⟨machine.offset, machine.limit, none⟩ (ordered expressions input)) := by
  cases machine.withTies with
  | false => exact rows_only _ _ _ _ _
  | true =>
      apply with_ties _ _ _ _ _ limited
      · intro entry member
        exact input.counted entry (ordered_member expressions input member)
      · exact keys_equal_self expressions.keys
      · exact ordered_together expressions input

-- Rows behind the last one read do not tie with a boundary that it does not tie with.
theorem apart_behind (limited : 0 < machine.limit) (read : Nat) (boundary last : TopNEntry Row)
    (closed : (scanAt expressions machine input read).boundary = some boundary)
    (ends : ((ordered expressions input).take read).getLast? = some last) (apart : keysEqual expressions.keys last boundary = false)
    (later : TopNEntry Row) (behind : later ∈ (ordered expressions input).drop read) :
    keysEqual expressions.keys later boundary = false := by
  have strict := ordered_strict expressions input
  rw [← List.take_append_drop read (ordered expressions input), List.pairwise_append] at strict
  obtain ⟨inside, _, across⟩ := strict
  have member := (boundary_read expressions machine input limited closed).2.1
  obtain ⟨earlier, split⟩ := List.getLast?_eq_some_iff.mp ends
  have lastRead : last ∈ (ordered expressions input).take read := List.mem_of_getLast? ends
  rw [split, List.pairwise_append] at inside
  rw [split] at member
  rcases List.mem_append.mp member with before | same
  · rw [← Bool.not_eq_true]
    intro ties
    have between := keys_equal_between expressions.keys
      (inside.2.2 boundary before last (List.mem_singleton_self last)) (across last lastRead later behind) ties
    rw [apart] at between
    cases between
  · rw [List.mem_singleton.mp same, keys_equal_self] at apart
    cases apart

-- Enough rows are read: the rest of the order adds nothing.
theorem enough_taken (limited : 0 < machine.limit) (read : Nat) (enough : Enough expressions machine input read) :
    expand (taken TopNEntry.multiplicity (keysEqual expressions.keys) machine.withTies ⟨machine.offset, machine.limit, none⟩
        ((ordered expressions input).take read)) =
      fetchFirst TopNEntry.multiplicity (keysEqual expressions.keys) machine.withTies machine.offset machine.limit
        (ordered expressions input) := by
  have rest : expand (taken TopNEntry.multiplicity (keysEqual expressions.keys) machine.withTies
      (scanAt expressions machine input read) ((ordered expressions input).drop read)) = [] := by
    rcases (enough_rows expressions machine input limited read).mp enough with all | ⟨plain, zero⟩ | ⟨boundary, last, closed, ends, apart⟩
    · rw [List.drop_eq_nil_iff.mpr all]
      rfl
    · have still : (scanAt expressions machine input read).boundary = none := by
        rw [scanAt, plain]
        exact scanned_open _ _ _ rfl
      rw [plain]
      have scan : scanAt expressions machine input read = ⟨(scanAt expressions machine input read).offset, 0, none⟩ := by
        rw [← zero, ← still]
      rw [scan]
      exact nothing_left _ _ _ _
    · exact nothing_tied _ _ _ _ boundary closed _ (apart_behind expressions machine input limited read boundary last closed ends apart)
  rw [fetch_taken expressions machine input limited]
  conv => rhs; rw [← List.take_append_drop read (ordered expressions input), taken_append, expand_append]
  change _ = _ ++ expand (taken TopNEntry.multiplicity (keysEqual expressions.keys) machine.withTies
    (scanAt expressions machine input read) ((ordered expressions input).drop read))
  rw [rest, List.append_nil]

theorem enough_mono (limited : 0 < machine.limit) (read more : Nat) (enough : Enough expressions machine input read) :
    Enough expressions machine input (read + more) := by
  obtain ⟨_, limit⟩ := counters_at expressions machine input read
  obtain ⟨_, limitNext⟩ := counters_at expressions machine input (read + more)
  have grown : (copies TopNEntry.multiplicity ((ordered expressions input).take read)).length ≤
      (copies TopNEntry.multiplicity ((ordered expressions input).take (read + more))).length := by
    rw [List.take_add, copies_append, List.length_append]
    exact Nat.le_add_right _ _
  rw [enough_rows expressions machine input limited] at enough ⊢
  rcases enough with all | ⟨plain, zero⟩ | ⟨boundary, last, closed, ends, apart⟩
  · exact .inl (Nat.le_add_right_of_le all)
  · exact .inr (.inl ⟨plain, by omega⟩)
  · right
    right
    have still : (scanAt expressions machine input (read + more)).boundary = some boundary := by
      rw [scanAt, List.take_add, scanned_append]
      exact scanned_closed _ _ _ _ boundary closed
    cases final : (((ordered expressions input).drop read).take more).getLast? with
    | none =>
        refine ⟨boundary, last, still, ?_, apart⟩
        rw [List.take_add, List.getLast?_eq_none_iff.mp final, List.append_nil]
        exact ends
    | some later =>
        have behind := List.mem_of_mem_take (List.mem_of_getLast? final)
        refine ⟨boundary, later, still, ?_, apart_behind expressions machine input limited read boundary last closed ends apart later
          behind⟩
        rw [List.take_add, List.getLast?_append, final]
        rfl

theorem read_grows (budgets : Nat → WorkBudget) (page later : Nat) (behind : page ≤ later) :
    ∃ more, readAfter expressions input budgets later = readAfter expressions input budgets page + more := by
  induction later, behind using Nat.le_induction with
  | base => exact ⟨0, rfl⟩
  | succ later _ ih =>
      obtain ⟨more, grown⟩ := ih
      exact ⟨more + (pageAt expressions input (readAfter expressions input budgets later) (budgets later)).length,
        by rw [← Nat.add_assoc, ← grown]; rfl⟩

end

section Runs

variable {Row Out Value : Type} [DecidableEq Out] (expressions : TopNExpressions Row Out Value) (machine : TopNMachine)
  (input : TopNInput Row) (streamId generationId : Nat) (afterDrain : AfterDrain) (budgets : Nat → WorkBudget)

omit [DecidableEq Out] in
theorem start_selecting : Selecting expressions machine input streamId generationId afterDrain 0
    (selectionStart machine streamId generationId afterDrain) := by
  refine ⟨.inl rfl, rfl, ⟨⟨List.nodup_nil, ?_⟩, List.Perm.refl _⟩⟩
  intro stored member
  cases member

section

variable (read rounds page : Nat) (state : SelectState Out)

omit [DecidableEq Out] in
theorem finished_stops (finished : Finished expressions machine input streamId generationId afterDrain read state) :
    state.selecting = false := by
  rw [SelectState.selecting, finished.1]

omit [DecidableEq Out] in
theorem selecting_goes (selecting : Selecting expressions machine input streamId generationId afterDrain read state) :
    state.selecting = true := by
  rw [SelectState.selecting, selecting.phase]

theorem pages_stopped (stopped : state.selecting = false) :
    selectPages expressions machine input budgets rounds page state = .ok state := by
  cases rounds with
  | zero => rfl
  | succ rounds => rw [selectPages, stopped, if_neg Bool.false_ne_true]

theorem pages_next (going : state.selecting = true) :
    selectPages expressions machine input budgets (rounds + 1) page state =
      (selectStep expressions machine input state (budgets page) >>= selectPages expressions machine input budgets rounds (page + 1)) := by
  rw [selectPages, going, if_pos rfl]

end

-- A budget beyond bigint is refused before anything is read.
theorem step_fits {read : Nat} {state after : SelectState Out}
    (selecting : Selecting expressions machine input streamId generationId afterDrain read state) {budget : WorkBudget}
    (stepped : selectStep expressions machine input state budget = .ok after) : Fits budget := by
  rw [selectStep, selecting.phase] at stepped
  simp only at stepped
  obtain ⟨action, known, stepped⟩ := bind_ok_iff.mp stepped
  rw [TopNMachine.action] at known
  obtain ⟨_, _, known⟩ := bind_ok_iff.mp known
  cases known
  simp only at stepped
  obtain ⟨_, run, _⟩ := bind_ok_iff.mp stepped
  unfold runTopnSelection at run
  obtain ⟨rows, run⟩ := refuse_bind_ok.mp run
  obtain ⟨bytes, _⟩ := refuse_bind_ok.mp run
  exact ⟨Nat.not_lt.mp (of_decide_eq_false rows), Nat.not_lt.mp (of_decide_eq_false bytes)⟩

variable (limited : 0 < machine.limit) (stream : streamId ≠ 0) (generation : generationId ≠ 0)
  (target : validateAfterDrain streamId afterDrain = .ok ())

include limited stream generation target

-- One page of a selection that goes on: it ends the selection, or leaves it at
-- the rows read by then.
theorem onward_step (page : Nat) (state : SelectState Out)
    (selecting : Selecting expressions machine input streamId generationId afterDrain (readAfter expressions input budgets page) state)
    (onward : Onward expressions machine input budgets) (reached : page = 0 ∨
      ¬ Enough expressions machine input (readAfter expressions input budgets page)) :
    ∃ after, selectStep expressions machine input state (budgets page) = .ok after ∧
      ((Enough expressions machine input (readAfter expressions input budgets (page + 1)) ∧
          Finished expressions machine input streamId generationId afterDrain (readAfter expressions input budgets (page + 1)) after) ∨
        (¬ Enough expressions machine input (readAfter expressions input budgets (page + 1)) ∧
          Selecting expressions machine input streamId generationId afterDrain (readAfter expressions input budgets (page + 1)) after)) := by
  obtain ⟨fits, forward⟩ := onward page reached
  obtain ⟨complete, after, decided, stepped, finishes, goes⟩ := step_page expressions machine input streamId generationId afterDrain
    limited stream generation target selecting fits
  refine ⟨after, ?_, ?_⟩
  · rw [stepped]
    cases complete with
    | true => rfl
    | false =>
        have more : ¬ Enough expressions machine input (readAfter expressions input budgets (page + 1)) := by
          intro enough
          cases decided.mpr enough
        have below := forward more
        change (refuse (rowIdBelow (lastRead expressions input (readAfter expressions input budgets (page + 1)))
          (lastRead expressions input (readAfter expressions input budgets page))) _ >>= _) = _
        rw [below]
        rfl
  · cases complete with
    | true => exact .inl ⟨decided.mp rfl, finishes rfl⟩
    | false =>
        refine .inr ⟨?_, goes rfl⟩
        intro enough
        cases decided.mpr enough

theorem pages_accepted (onward : Onward expressions machine input budgets) (rounds page : Nat) (state : SelectState Out)
    (selecting : Selecting expressions machine input streamId generationId afterDrain (readAfter expressions input budgets page) state)
    (reached : page = 0 ∨ ¬ Enough expressions machine input (readAfter expressions input budgets page)) :
    ∃ final, selectPages expressions machine input budgets rounds page state = .ok final := by
  induction rounds generalizing page state with
  | zero => exact ⟨state, rfl⟩
  | succ rounds ih =>
      obtain ⟨after, stepped, ⟨_, finished⟩ | ⟨more, goes⟩⟩ := onward_step expressions machine input streamId generationId afterDrain
        budgets limited stream generation target page state selecting onward reached
      · refine ⟨after, ?_⟩
        rw [pages_next _ _ _ _ _ _ _ (selecting_goes _ _ _ _ _ _ _ _ selecting), stepped, ok_bind]
        exact pages_stopped _ _ _ _ _ _ _ (finished_stops _ _ _ _ _ _ _ _ finished)
      · obtain ⟨final, ended⟩ := ih (page + 1) after goes (.inr more)
        refine ⟨final, ?_⟩
        rw [pages_next _ _ _ _ _ _ _ (selecting_goes _ _ _ _ _ _ _ _ selecting), stepped, ok_bind]
        exact ended

-- Every page reads on, so that the rows left bound the pages left.
theorem pages_finish (onward : Onward expressions machine input budgets) (left page : Nat) (state : SelectState Out)
    (selecting : Selecting expressions machine input streamId generationId afterDrain (readAfter expressions input budgets page) state)
    (reached : page = 0 ∨ ¬ Enough expressions machine input (readAfter expressions input budgets page))
    (measure : (ordered expressions input).length - readAfter expressions input budgets page < left) :
    ∃ rounds final read, selectPages expressions machine input budgets rounds page state = .ok final ∧
      Enough expressions machine input read ∧ Finished expressions machine input streamId generationId afterDrain read final := by
  induction left generalizing page state with
  | zero => exact absurd measure (Nat.not_lt_zero _)
  | succ left ih =>
      obtain ⟨after, stepped, ⟨enough, finished⟩ | ⟨more, goes⟩⟩ := onward_step expressions machine input streamId generationId
        afterDrain budgets limited stream generation target page state selecting onward reached
      · refine ⟨1, after, _, ?_, enough, finished⟩
        rw [pages_next _ _ _ _ _ _ _ (selecting_goes _ _ _ _ _ _ _ _ selecting), stepped]
        rfl
      · have some := (page_cursor expressions machine input _ selecting.fresh (budgets page)).2 more
        have rest : readAfter expressions input budgets (page + 1) < (ordered expressions input).length := by
          by_contra all
          exact more (.inl (Nat.not_lt.mp all))
        have next : readAfter expressions input budgets (page + 1) = readAfter expressions input budgets page +
          (pageAt expressions input (readAfter expressions input budgets page) (budgets page)).length := rfl
        obtain ⟨rounds, final, read, ended, enough, finished⟩ := ih (page + 1) after goes (.inr more) (by omega)
        refine ⟨rounds + 1, final, read, ?_, enough, finished⟩
        rw [pages_next _ _ _ _ _ _ _ (selecting_goes _ _ _ _ _ _ _ _ selecting), stepped, ok_bind]
        exact ended

-- A run that ends had every page accepted.
theorem pages_onward (rounds page : Nat) (state final : SelectState Out)
    (selecting : Selecting expressions machine input streamId generationId afterDrain (readAfter expressions input budgets page) state)
    (ended : selectPages expressions machine input budgets rounds page state = .ok final) (stopped : final.selecting = false)
    (later : Nat) (behind : page ≤ later)
    (reached : later = 0 ∨ ¬ Enough expressions machine input (readAfter expressions input budgets later)) :
    Fits (budgets later) ∧ (¬ Enough expressions machine input (readAfter expressions input budgets (later + 1)) →
      rowIdBelow (lastRead expressions input (readAfter expressions input budgets (later + 1)))
        (lastRead expressions input (readAfter expressions input budgets later)) = false) := by
  induction rounds generalizing page state with
  | zero =>
      cases ended
      rw [selecting_goes _ _ _ _ _ _ _ _ selecting] at stopped
      cases stopped
  | succ rounds ih =>
      rw [pages_next _ _ _ _ _ _ _ (selecting_goes _ _ _ _ _ _ _ _ selecting)] at ended
      obtain ⟨after, stepped, ended⟩ := bind_ok_iff.mp ended
      have fits := step_fits expressions machine input streamId generationId afterDrain selecting stepped
      obtain ⟨complete, next, decided, same, _, goes⟩ := step_page expressions machine input streamId generationId afterDrain
        limited stream generation target selecting fits
      rw [same] at stepped
      obtain ⟨forward, stored⟩ := refuse_bind_ok.mp stepped
      cases stored
      rcases Nat.eq_or_lt_of_le behind with here | further
      · rw [← here]
        refine ⟨fits, ?_⟩
        intro more
        cases complete with
        | true => exact absurd (decided.mp rfl) more
        | false => exact forward
      · cases complete with
        | true =>
            obtain ⟨more, grown⟩ := read_grows expressions input budgets (page + 1) later further
            rcases reached with start | open_
            · omega
            · rw [grown] at open_
              exact absurd (enough_mono expressions machine input limited _ more (decided.mp rfl)) open_
        | false => exact ih (page + 1) after (goes rfl) ended further

-- The selection runs to its end, with exactly the rows of the query, when no
-- page that it goes on from ends at a lower entry id than the page before it.
theorem selection_exact_iff :
    ((∀ rounds, ∃ state, selectPages expressions machine input budgets rounds 0
        (selectionStart machine streamId generationId afterDrain) = .ok state) ∧
      ∃ rounds final, selectPages expressions machine input budgets rounds 0
          (selectionStart machine streamId generationId afterDrain) = .ok final ∧
        final.continuation = some ⟨streamId, none, .diff generationId .remove {} afterDrain⟩ ∧ Counted final.candidate ∧
        (expand final.candidate).Perm (sqlSelection expressions machine input)) ↔
      Onward expressions machine input budgets := by
  have start : Selecting expressions machine input streamId generationId afterDrain (readAfter expressions input budgets 0)
      (selectionStart machine streamId generationId afterDrain) :=
    start_selecting expressions machine input streamId generationId afterDrain
  constructor
  · intro exact_
    obtain ⟨_, rounds, final, ended, phase, _⟩ := exact_
    have stopped : final.selecting = false := by rw [SelectState.selecting, phase]
    intro page reached
    exact pages_onward expressions machine input streamId generationId afterDrain budgets limited stream generation target rounds 0 _
      final start ended stopped page (Nat.zero_le page) reached
  · intro onward
    refine ⟨fun rounds => pages_accepted expressions machine input streamId generationId afterDrain budgets limited stream generation
      target onward rounds 0 _ start (.inl rfl), ?_⟩
    obtain ⟨rounds, final, read, ended, enough, finished⟩ := pages_finish expressions machine input streamId generationId afterDrain
      budgets limited stream generation target onward _ 0 _ start (.inl rfl) (Nat.lt_succ_self _)
    refine ⟨rounds, final, ended, finished.1, finished.2.1, ?_⟩
    rw [sqlSelection, ← enough_taken expressions machine input limited read enough]
    exact finished.2.2

end Runs

-- Three rows that a query orders by value, entered as the second, the first and
-- the third.
def valueOrder : KeyColumn (TopNEntry Int) Int where
  sortOperator := fun left right => decide (left < right)
  equalityOperator := fun left right => decide (left = right)
  nullsFirst := false
  weak := less_weak
  equality := equal_tied
  column := fun entry => some entry.row

def valueExpressions : TopNExpressions Int Int Int := ⟨[valueOrder], id, fun _ => 8⟩

def swappedEntries : List (TopNEntry Int) := [⟨1, 20, 1⟩, ⟨2, 10, 1⟩, ⟨3, 30, 1⟩]

theorem swapped_distinct : (swappedEntries.map TopNEntry.entryId).Nodup := by decide

theorem swapped_identity : ∀ entry ∈ swappedEntries, 0 < entry.entryId := by decide

theorem swapped_counted : ∀ entry ∈ swappedEntries, 0 < entry.multiplicity := by decide

def swappedInput : TopNInput Int := ⟨swappedEntries, swapped_distinct, swapped_identity, swapped_counted⟩

theorem row_positive : 0 < 1 := Nat.one_pos

theorem bytes_positive : 0 < 64 := by decide

def rowBudget : WorkBudget := ⟨1, 64, 1, 64, row_positive, bytes_positive, row_positive, bytes_positive⟩

-- The second page of one row ends at entry 1, and the first one at entry 2.
theorem swapped_rows_rejected : ¬ ∀ rounds, ∃ state, selectPages valueExpressions ⟨3, 0, false⟩ swappedInput (fun _ => rowBudget)
    rounds 0 (selectionStart ⟨3, 0, false⟩ 1 1 .finishInput) = .ok state := by
  intro accepted
  obtain ⟨state, ended⟩ := accepted 2
  have rejected : (selectPages valueExpressions ⟨3, 0, false⟩ swappedInput (fun _ => rowBudget) 2 0
      (selectionStart ⟨3, 0, false⟩ 1 1 .finishInput)).isOk = false := by decide +kernel
  rw [ended] at rejected
  cases rejected

theorem swapped_rows_exact_iff :
    ((∀ rounds, ∃ state, selectPages valueExpressions ⟨3, 0, false⟩ swappedInput (fun _ => rowBudget) rounds 0
        (selectionStart ⟨3, 0, false⟩ 1 1 .finishInput) = .ok state) ∧
      ∃ rounds final, selectPages valueExpressions ⟨3, 0, false⟩ swappedInput (fun _ => rowBudget) rounds 0
          (selectionStart ⟨3, 0, false⟩ 1 1 .finishInput) = .ok final ∧
        final.continuation = some ⟨1, none, .diff 1 .remove {} .finishInput⟩ ∧ Counted final.candidate ∧
        (expand final.candidate).Perm (sqlSelection valueExpressions ⟨3, 0, false⟩ swappedInput)) ↔
      Onward valueExpressions ⟨3, 0, false⟩ swappedInput fun _ => rowBudget :=
  selection_exact_iff valueExpressions ⟨3, 0, false⟩ swappedInput 1 1 .finishInput (fun _ => rowBudget) (by decide) (by decide)
    (by decide) rfl

end Shiba.TopN
