import Shiba.Window.NtileExact

set_option autoImplicit false

namespace Shiba.Window

open Shiba.Execution Budget Rounds

variable (partition : NtilePartition) (budgets : Nat → WorkBudget)

-- So many pages of a partition that has no state row yet.
def evaluateRounds (count : Nat) : Except Fault EvaluateState :=
  rounds (evaluateStep partition) EvaluateState.complete budgets count 0 { tables := ⟨none, []⟩ }

-- The pages end with PostgreSQL's values, and fail where PostgreSQL does.
def MatchesPostgres : Prop :=
  (∀ values, postgresNtile partition.rows.length {} (partition.rows.map NtileRow.argument) = .ok values →
    (∀ count, ∃ state, evaluateRounds partition budgets count = .ok state) ∧
    ∃ count final, evaluateRounds partition budgets count = .ok final ∧ final.complete = true ∧
      final.tables = ⟨none, (partition.rows.map NtileRow.ordinal).zip values⟩) ∧
  (∀ fault, postgresNtile partition.rows.length {} (partition.rows.map NtileRow.argument) = .error fault →
    ∃ count other, evaluateRounds partition budgets count = .error other)

def rowsLeft (state : EvaluateState) : Nat :=
  partition.rows.length - (state.cursor.rowId.getD 0).toNat + if state.complete then 0 else 1

theorem evaluated_left (read : Nat) (state : EvaluateState) (evaluated : Evaluated partition read state) :
    rowsLeft partition state = partition.rows.length - read + if state.complete then 0 else 1 := by
  have here : (state.cursor.rowId.getD 0).toNat = read := by
    rw [evaluated.cursor, cursorAt]
    by_cases start : read = 0
    · rw [if_pos start, start]
      rfl
    · rw [if_neg start, Option.getD_some, Int.toNat_natCast]
  rw [rowsLeft, here]

theorem evaluation_starts : Evaluated partition 0 { tables := ⟨none, []⟩ } := by
  refine ⟨Nat.zero_le _, rfl, ⟨{}, rfl, rfl⟩, ?_, ?_⟩
  · intro done
    cases done
  · intro _
    exact .inl rfl

-- A step that goes through leaves less.
theorem step_lowers {read next : Nat} {state after : EvaluateState} (evaluated : Evaluated partition read state)
    (going : state.complete = false) (reached : Evaluated partition next after)
    (lower : after.complete = false → partition.rows.length - next < partition.rows.length - read) :
    rowsLeft partition after < rowsLeft partition state := by
  rw [evaluated_left partition read state evaluated, evaluated_left partition next after reached, going]
  cases done : after.complete with
  | true =>
      have all := reached.finished done
      simp only [if_true, Bool.false_eq_true, if_false]
      omega
  | false =>
      have less := lower done
      simp only [Bool.false_eq_true, if_false]
      omega

variable (settings : ∀ round, Settings (budgets round))

include settings

theorem rounds_complete (values : List (Int × Option Int)) (final : NtileState)
    (folded : foldNtile partition.rows.length {} partition.rows = .ok (values, final)) :
    (∀ count, ∃ state, evaluateRounds partition budgets count = .ok state) ∧
    ∃ count last, evaluateRounds partition budgets count = .ok last ∧ last.complete = true ∧ last.tables = ⟨none, values⟩ := by
  have steps (state : EvaluateState) (budget : WorkBudget) (read : Nat) (evaluated : Evaluated partition read state)
      (going : state.complete = false) (offered : Settings budget) :
      ∃ after next, evaluateStep partition state budget = .ok after ∧ Evaluated partition next after ∧
        (after.complete = false → partition.rows.length - next < partition.rows.length - read) := by
    rcases evaluate_step partition evaluated going offered with ⟨_, _, other, failed⟩ | stepped
    · rw [folded] at failed
      cases failed
    · exact stepped
  have keeps (state : EvaluateState) (budget : WorkBudget) (evaluated : ∃ read, Evaluated partition read state)
      (going : state.complete = false) (offered : Settings budget) :
      ∃ after, evaluateStep partition state budget = .ok after ∧ ∃ read, Evaluated partition read after := by
    obtain ⟨read, evaluated⟩ := evaluated
    obtain ⟨after, next, stepped, reached, _⟩ := steps state budget read evaluated going offered
    exact ⟨after, stepped, next, reached⟩
  have start : ∃ read, Evaluated partition read { tables := ⟨none, []⟩ } := ⟨0, evaluation_starts partition⟩
  refine ⟨?_, ?_⟩
  · intro count
    obtain ⟨state, ran, _⟩ := rounds_keep (evaluateStep partition) EvaluateState.complete budgets _ Settings keeps settings count 0 _ start
    exact ⟨state, ran⟩
  · have lowers (state : EvaluateState) (budget : WorkBudget) (after : EvaluateState)
        (evaluated : ∃ read, Evaluated partition read state) (going : state.complete = false) (offered : Settings budget)
        (stepped : evaluateStep partition state budget = .ok after) : rowsLeft partition after < rowsLeft partition state := by
      obtain ⟨read, evaluated⟩ := evaluated
      obtain ⟨other, next, ran, reached, lower⟩ := steps state budget read evaluated going offered
      obtain rfl := Except.ok.inj (ran.symm.trans stepped)
      exact step_lowers partition evaluated going reached lower
    obtain ⟨count, last, ran, ⟨read, reached⟩, done⟩ := rounds_end (evaluateStep partition) EvaluateState.complete budgets _
      Settings keeps settings (rowsLeft partition) lowers 0 _ start
    refine ⟨count, last, ran, done, ?_⟩
    obtain ⟨other, all, isState⟩ := reached.folded
    rw [reached.finished done, List.take_length, folded] at all
    have same : last.tables.values = values := (congrArg Prod.fst (Except.ok.inj all)).symm
    rw [if_pos (.inr done)] at isState
    rw [← isState, ← same]

theorem rounds_reject (fault : Fault) (failed : foldNtile partition.rows.length {} partition.rows = .error fault) :
    ∃ count other, evaluateRounds partition budgets count = .error other := by
  have never (state : EvaluateState) (evaluated : ∃ read, Evaluated partition read state) : state.complete = false := by
    obtain ⟨read, evaluated⟩ := evaluated
    by_contra done
    rw [Bool.not_eq_false] at done
    obtain ⟨final, folded, _⟩ := evaluated.folded
    rw [evaluated.finished done, List.take_length, failed] at folded
    cases folded
  apply rounds_fail (evaluateStep partition) EvaluateState.complete budgets (fun state => ∃ read, Evaluated partition read state)
    (rowsLeft partition) never
  · intro state round after evaluated stepped
    have going := never state evaluated
    obtain ⟨read, evaluated⟩ := evaluated
    rcases evaluate_step partition evaluated going (settings round) with
      ⟨other, wrong, _⟩ | ⟨other, next, ran, reached, lower⟩
    · rw [wrong] at stepped
      cases stepped
    · obtain rfl := Except.ok.inj (ran.symm.trans stepped)
      exact ⟨⟨next, reached⟩, step_lowers partition evaluated going reached lower⟩
  · exact ⟨0, evaluation_starts partition⟩

omit settings in
-- PostgreSQL's counter does not mind how many rows a bucket has.
theorem postgres_one (rows : List NtileRow) (total : Nat) (one : firstBuckets rows = some 1) :
    ∃ values, postgresNtile total {} (rows.map NtileRow.argument) = .ok values := by
  induction rows with
  | nil => cases one
  | cons row rest ih =>
      rw [List.map_cons, postgresNtile]
      cases isArgument : row.argument with
      | none =>
          have first : firstBuckets (row :: rest) = firstBuckets rest := by
            rw [firstBuckets, List.filterMap_cons_none isArgument]
            rfl
          obtain ⟨values, ran⟩ := ih (first ▸ one)
          refine ⟨none :: values, ?_⟩
          change (postgresNtile total {} (rest.map NtileRow.argument) >>= _) = _
          rw [ran]
          rfl
      | some argument =>
          rw [firstBuckets, List.filterMap_cons_some isArgument, List.head?_cons] at one
          obtain rfl := Option.some.inj one
          have running : (NtileContext.first total 1).advance.ntile ≠ 0 := by
            unfold NtileContext.first NtileContext.advance
            repeat' split
            all_goals simp only []
            all_goals omega
          obtain ⟨values, ran⟩ := counter_runs total (NtileContext.first total 1).advance running (rest.map NtileRow.argument)
          refine ⟨some (((NtileContext.first total 1).advance.ntile : Nat) : Int) :: values, ?_⟩
          change (postgresNtile total (NtileContext.first total 1).advance (rest.map NtileRow.argument) >>= _) = _
          rw [ran]
          rfl

-- A bucket of the largest count of rows has no size as a bigint.
theorem overflowing_differs (full : partition.rows.length = bigintMax) (one : firstBuckets partition.rows = some 1) :
    ¬ MatchesPostgres partition budgets := by
  rintro ⟨goes, _⟩
  have bounded (row : NtileRow) (member : row ∈ partition.rows) : 0 < row.ordinal ∧ row.ordinal ≤ bigintMax := by
    obtain ⟨index, found⟩ := List.getElem?_of_mem member
    obtain ⟨here, inside⟩ := row_ordinal partition found
    omega
  obtain ⟨values, ran⟩ := postgres_one partition.rows partition.rows.length one
  obtain ⟨fault, failed⟩ := fold_overflows partition.rows full one bounded
  obtain ⟨count, other, wrong⟩ := rounds_reject partition budgets settings fault failed
  obtain ⟨state, ran⟩ := (goes values ran).1 count
  rw [wrong] at ran
  cases ran

omit partition budgets settings

def leadingNull : List NtileRow := [⟨1, none, 8⟩, ⟨2, some 2, 8⟩, ⟨3, none, 8⟩, ⟨4, some 9, 8⟩]

theorem leading_null_ordinals :
    leadingNull.map NtileRow.ordinal = (List.range leadingNull.length).map fun index : Nat => (index : Int) + 1 := by decide

theorem leading_null_counted : leadingNull.length ≤ bigintMax := by decide

theorem leading_null_integers : ∀ row ∈ leadingNull, ∀ buckets, row.argument = some buckets → buckets ≤ int4Max := by decide

def leadingNullPartition : NtilePartition where
  rows := leadingNull
  ordinals := leading_null_ordinals
  counted := leading_null_counted
  integers := leading_null_integers

-- So many rows, in one bucket.
def bucketRow (index : Nat) : NtileRow := ⟨(index : Int) + 1, some 1, 8⟩

def oneBucket (count : Nat) : List NtileRow := (List.range count).map bucketRow

section

variable (count : Nat)

theorem one_bucket_length : (oneBucket count).length = count := by
  rw [oneBucket, List.length_map, List.length_range]

theorem one_bucket_ordinals :
    (oneBucket count).map NtileRow.ordinal = (List.range (oneBucket count).length).map fun index : Nat => (index : Int) + 1 := by
  rw [one_bucket_length, oneBucket, List.map_map]
  rfl

theorem one_bucket_counted (fits : count ≤ bigintMax) : (oneBucket count).length ≤ bigintMax := by
  rw [one_bucket_length]
  exact fits

theorem one_bucket_integers :
    ∀ row ∈ oneBucket count, ∀ buckets, row.argument = some buckets → buckets ≤ int4Max := by
  intro row member buckets isArgument
  obtain ⟨index, _, rfl⟩ := List.mem_map.mp member
  obtain rfl := Option.some.inj isArgument
  decide

def oneBucketPartition (count : Nat) (fits : count ≤ bigintMax) : NtilePartition where
  rows := oneBucket count
  ordinals := one_bucket_ordinals count
  counted := one_bucket_counted count fits
  integers := one_bucket_integers count

theorem one_bucket_first (positive : 0 < count) : firstBuckets (oneBucket count) = some 1 := by
  have arguments : (oneBucket count).filterMap NtileRow.argument = (List.range count).map fun _ => (1 : Int) := by
    rw [oneBucket, List.filterMap_map, ← List.filterMap_eq_map]
    rfl
  obtain ⟨before, rfl⟩ := Nat.exists_eq_succ_of_ne_zero (Nat.ne_of_gt positive)
  rw [firstBuckets, arguments, List.range_succ_eq_map]
  rfl

theorem one_bucket_differs (fits : count ≤ bigintMax) (full : count = bigintMax) :
    ¬ MatchesPostgres (oneBucketPartition count fits) fun _ => twoRows := by
  apply overflowing_differs (oneBucketPartition count fits) (fun _ => twoRows) fun _ => two_rows_settings
  · exact (one_bucket_length count).trans full
  · apply one_bucket_first
    rw [full]
    decide

end

end Shiba.Window
