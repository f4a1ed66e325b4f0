import Shiba.Window.FoldRuns

set_option autoImplicit false

namespace Shiba.Window

open Shiba.Execution Spans Rounds

variable {Row Value : Type} (function : FoldFunction Row Value) (partition : FoldPartition Row) (budgets : Nat → WorkBudget)

-- So many calls from the first cursor of a function on. A call that is not
-- accepted ends them with its error.
def foldRounds (count : Nat) : Except Fault (FoldState Value) :=
  rounds (foldStep function partition) FoldState.finished budgets count 0 { tables := ⟨none, []⟩ }

-- What is stored between two calls: the outputs before the cursor's are final,
-- and the accumulator holds the rows of the cursor's frame up to its ordinal.
inductive Saved : FoldState Value → Prop where
  | done : Saved ⟨none, ⟨none, outputs function partition partition.rows.length⟩⟩
  | empty (none : partition.rows = []) : Saved { tables := ⟨Option.none, []⟩ }
  | folding (output read : Nat) (ready : Bool) (cursor : WindowFoldCursor) (tables : FoldTables Value)
      (folds : Folding function partition output read ready cursor tables) : Saved ⟨some cursor, tables⟩

theorem saved_accumulator (state : FoldState Value) (saved : Saved function partition state) :
    state.tables.accumulator.isSome = state.cursor.any fun cursor => cursor.lastFrameOrdinal.isSome || cursor.readyToFinalize := by
  cases saved with
  | done => rfl
  | empty none => rfl
  | folding output read ready cursor tables folds =>
      have begun : (lastKey FoldRow.ordinal (outputRows partition output) read).isSome = decide (0 < read) := by
        rw [← Option.not_isNone, last_key_none _ _ folds.inside, ← decide_not, decide_eq_decide]
        omega
      rw [folds.accumulator, folds.cursor, Option.any_some]
      simp only
      rw [begun]
      by_cases fresh : read = 0 ∧ ready = false
      · obtain ⟨rfl, rfl⟩ := fresh
        rfl
      · rw [if_neg fresh, Option.isSome_some]
        cases ready with
        | true => rw [Bool.or_true]
        | false =>
            have some : read ≠ 0 := fun start => fresh ⟨start, rfl⟩
            rw [decide_eq_true (by omega), Bool.true_or]

theorem fold_starts : Saved function partition { tables := ⟨none, []⟩ } := by
  by_cases nothing : partition.rows = []
  · exact .empty nothing
  · have positive := List.length_pos_iff.mpr nothing
    refine .folding 1 0 false _ _ ⟨Nat.le_refl _, positive, Nat.zero_le _, ?_, fun wrong => (by cases wrong), fun _ => .inl rfl, rfl, ?_⟩
    · rw [lastKey, if_pos rfl]
      rfl
    · rw [if_pos ⟨rfl, rfl⟩]

-- A function without rows is done at once.
theorem empty_step (nothing : partition.rows = []) (budget : WorkBudget) :
    foldStep function partition { tables := ⟨none, []⟩ } budget =
      .ok ⟨none, ⟨none, outputs function partition partition.rows.length⟩⟩ := by
  have primitive : runWindowAggregateFold function partition (⟨none, []⟩ : FoldTables Value) { outputOrdinal := 1 } budget =
      .ok (⟨{}, none, 1⟩, ⟨none, []⟩) := by
    rw [runWindowAggregateFold, nothing]
    rfl
  have usage : WorkUsage.validate {} budget = .ok () :=
    (validate_whole _ _).mpr ⟨⟨Nat.zero_le _, .inl (Nat.zero_le _)⟩, Nat.zero_le _, .inl (Nat.zero_le _)⟩
  have valid : WindowFoldPage.validate ⟨{}, none, 1⟩ { outputOrdinal := 1 } budget false = .ok () := by
    rw [WindowFoldPage.validate]
    change ((WorkUsage.validate {} budget >>= fun _ => _) >>= _) = _
    rw [usage]
    rfl
  rw [foldStep]
  simp only
  rw [primitive, ok_bind]
  simp only
  rw [valid, nothing]
  rfl

theorem saved_step {state : FoldState Value} {budget : WorkBudget} (saved : Saved function partition state)
    (going : state.finished = false) (settings : Settings budget) :
    ∃ after, foldStep function partition state budget = .ok after ∧ Saved function partition after ∧
      foldLeft partition after < foldLeft partition state := by
  cases saved with
  | done => cases going
  | empty nothing =>
      refine ⟨_, empty_step function partition nothing budget, .done, ?_⟩
      change 0 < _ + (_ + 2)
      omega
  | folding output read ready cursor tables folds =>
      obtain ⟨after, stepped, less, ends⟩ := fold_step partition budget settings folds
      refine ⟨after, stepped, ?_, less⟩
      obtain ⟨next, stored⟩ := after
      rcases ends with ⟨isNone, done⟩ | ⟨other, more, now, later, isNext, waits⟩
      · change next = none at isNone
        change stored = _ at done
        rw [isNone, done]
        exact .done
      · change next = some later at isNext
        rw [isNext]
        exact .folding other more now later stored waits

variable (settings : ∀ round, Settings (budgets round))

include settings

-- Whatever the budgets are, every call is accepted and keeps the accumulator in
-- step with its cursor, and the calls end with every output finalized once, from
-- all rows of its frame in their order.
theorem aggregate_fold_exact :
    (∀ count, ∃ state, foldRounds function partition budgets count = .ok state ∧ Saved function partition state ∧
      state.tables.accumulator.isSome = state.cursor.any fun cursor => cursor.lastFrameOrdinal.isSome || cursor.readyToFinalize) ∧
    ∃ count final, foldRounds function partition budgets count = .ok final ∧ final.cursor = none ∧
      final.tables = ⟨none, outputs function partition partition.rows.length⟩ := by
  have keeps (state : FoldState Value) (budget : WorkBudget) (saved : Saved function partition state) (going : state.finished = false)
      (offered : Settings budget) : ∃ after, foldStep function partition state budget = .ok after ∧ Saved function partition after := by
    obtain ⟨after, stepped, kept, _⟩ := saved_step function partition saved going offered
    exact ⟨after, stepped, kept⟩
  have start := fold_starts function partition
  refine ⟨?_, ?_⟩
  · intro count
    obtain ⟨state, ran, saved⟩ := rounds_keep (foldStep function partition) FoldState.finished budgets _ Settings keeps settings
      count 0 _ start
    exact ⟨state, ran, saved, saved_accumulator function partition state saved⟩
  · have lowers (state : FoldState Value) (budget : WorkBudget) (after : FoldState Value) (saved : Saved function partition state)
        (going : state.finished = false) (offered : Settings budget) (stepped : foldStep function partition state budget = .ok after) :
        foldLeft partition after < foldLeft partition state := by
      obtain ⟨other, ran, _, less⟩ := saved_step function partition saved going offered
      obtain rfl := Except.ok.inj (ran.symm.trans stepped)
      exact less
    obtain ⟨count, final, ran, saved, finished⟩ := rounds_end (foldStep function partition) FoldState.finished budgets _ Settings keeps
      settings (foldLeft partition) lowers 0 _ start
    refine ⟨count, final, ran, ?_⟩
    cases saved with
    | done => exact ⟨rfl, rfl⟩
    | empty nothing => cases finished
    | folding output read ready cursor tables folds => cases finished

omit budgets settings

theorem sum_started (_ : true = true) (_ : (none : Option Int) = none) (row : Int) : [some row] ≠ [] := List.cons_ne_nil _ _

theorem sum_positive (_ : Int) (_ : Option Int) : 0 < 16 := by decide

theorem sum_sized (_ : Int) (_ : Option Int) : 16 ≤ bigintMax := by decide

-- sum(integer): strict, from the first value on.
def sumFunction : FoldFunction Int Int where
  transitionIsStrict := true
  initialLiteral := none
  filter _ := some true
  arguments row := [some row]
  transition state arguments := some (state.getD 0 + (arguments.head?.join).getD 0)
  finalFunction state := state
  isLastFunction := true
  workBytes _ _ := 16
  started := sum_started
  positive := sum_positive
  sized := sum_sized

-- The second row is larger than the budget, and its frame is empty.
def threeRows : List (FoldRow Int) := [⟨1, 5, 8⟩, ⟨2, 7, 200⟩, ⟨3, 11, 8⟩]

def threeFrames : List FrameRow := [⟨some ⟨1, 3⟩, none, none, 3⟩, ⟨none, none, none, 0⟩, ⟨some ⟨1, 1⟩, none, some ⟨3, 3⟩, 2⟩]

theorem three_ordinals :
    threeRows.map FoldRow.ordinal = (List.range threeRows.length).map fun index : Nat => (index : Int) + 1 := by decide

theorem three_counted : threeRows.length ≤ bigintMax := by decide

theorem three_sized : ∀ row ∈ threeRows, 0 < row.rowBytes ∧ row.rowBytes ≤ bigintMax := by
  simp only [threeRows, List.mem_cons, List.not_mem_nil, or_false, forall_eq_or_imp, forall_eq]
  decide

theorem three_framed : threeFrames.length = threeRows.length := rfl

theorem three_ordered : ∀ frame ∈ threeFrames, Ordered frame.spans := by
  unfold Ordered
  decide

def threePartition : FoldPartition Int where
  rows := threeRows
  frames := threeFrames
  ordinals := three_ordinals
  counted := three_counted
  sized := three_sized
  framed := three_framed
  ordered := three_ordered

theorem three_rows_folded :
    ∃ count final, foldRounds sumFunction threePartition (fun _ => twoRows) count = .ok final ∧ final.cursor = none ∧
      final.tables = ⟨none, outputs sumFunction threePartition 3⟩ :=
  (aggregate_fold_exact sumFunction threePartition (fun _ => twoRows) fun _ => two_rows_settings).2

example : outputs sumFunction threePartition 3 = [(1, some 23), (2, none), (3, some 16)] := by decide

end Shiba.Window
