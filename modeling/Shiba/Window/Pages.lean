import Shiba.Window.Machine
import Shiba.Execution.Usage

set_option autoImplicit false

namespace Shiba.Window

open Shiba.Execution Portions

def windowI64Budget (value : Nat) (name : String) : Except Fault Unit := refuse (decide (bigintMax < value)) s!"{name} exceeds bigint"

-- The settings are integers.
def Settings (budget : WorkBudget) : Prop := budget.maxInputRows < bigintMax ∧ budget.maxInputBytes ≤ bigintMax

theorem two_rows_bytes : 0 < 64 := by decide

-- Two rows at a time.
def twoRows : WorkBudget where
  maxInputRows := 2
  maxInputBytes := 64
  maxOutputRows := 2
  maxOutputBytes := 64
  inputRowsPositive := Nat.two_pos
  inputBytesPositive := two_rows_bytes
  outputRowsPositive := Nat.two_pos
  outputBytesPositive := two_rows_bytes

theorem two_rows_settings : Settings twoRows := ⟨by decide, by decide⟩

def windowInternalPage (inputRows inputBytes stateRows : Nat) (lastRowId : Option Int) (complete : Bool) : WindowPage where
  facts := { usage := { inputRows := inputRows, inputBytes := inputBytes }, stateRows := stateRows }
  lastRowId := lastRowId
  complete := complete

-- A whole page of internal work is valid where it leaves off behind its cursor.
theorem internal_page_valid (inputRows inputBytes stateRows : Nat) (lastRowId : Option Int) (complete : Bool)
    (previous : WindowCursor) (budget : WorkBudget) (whole : Whole inputRows inputBytes budget.maxInputRows budget.maxInputBytes)
    (rowed : lastRowId.isSome = decide (0 < inputRows)) (positive : ∀ rowId, lastRowId = some rowId → 0 < rowId)
    (resumes : complete = false → 0 < inputRows) (forward : complete = false → rowIdBelow lastRowId previous.rowId = false) :
    (windowInternalPage inputRows inputBytes stateRows lastRowId complete).validate previous budget false = .ok () := by
  have usage : WorkUsage.validate { inputRows := inputRows, inputBytes := inputBytes } budget = .ok () :=
    (validate_whole _ _).mpr ⟨whole, Nat.zero_le _, .inl (Nat.zero_le _)⟩
  have facts : (windowInternalPage inputRows inputBytes stateRows lastRowId complete).facts.validate budget = .ok () := by
    change (WorkUsage.validate { inputRows := inputRows, inputBytes := inputBytes } budget >>= _) = _
    rw [usage]
    rfl
  have page : (windowInternalPage inputRows inputBytes stateRows lastRowId complete).pageFacts.validate budget = .ok () := by
    change (WorkUsage.validate { inputRows := inputRows, inputBytes := inputBytes } budget >>= fun _ =>
      refuse (decide (inputRows = 0) && lastRowId.isSome) _ >>= fun _ =>
        refuse (decide (0 < inputRows) && lastRowId.isNone && !complete) _) = _
    rw [usage, ok_bind, refuse_bind_ok, refuse_ok, rowed]
    by_cases some : 0 < inputRows
    · obtain ⟨rowId, isRow⟩ := Option.isSome_iff_exists.mp (rowed.trans (decide_eq_true some))
      rw [decide_eq_false (Nat.ne_of_gt some), isRow]
      exact ⟨rfl, by rw [Option.isNone_some, Bool.and_false, Bool.false_and]⟩
    · rw [decide_eq_false some, Bool.and_false, Bool.false_and]
      exact ⟨rfl, rfl⟩
  have above : (lastRowId.any fun rowId => decide (rowId ≤ 0)) = false := by
    cases isRow : lastRowId with
    | none => rfl
    | some rowId => exact decide_eq_false (Int.not_le.mpr (positive rowId isRow))
  have moved : (!complete && (decide (inputRows = 0) || lastRowId.isNone)) = false := by
    cases isComplete : complete with
    | true => rfl
    | false =>
        have some := resumes isComplete
        obtain ⟨rowId, isRow⟩ := Option.isSome_iff_exists.mp (rowed.trans (decide_eq_true some))
        rw [decide_eq_false (Nat.ne_of_gt some), isRow]
        rfl
  have behind : (!complete && rowIdBelow lastRowId previous.rowId) = false := by
    cases isComplete : complete with
    | true => rfl
    | false => exact forward isComplete
  rw [WindowPage.validate, facts, ok_bind, page, ok_bind]
  change (refuse (lastRowId.any fun rowId => decide (rowId ≤ 0)) _ >>= fun _ =>
    refuse (!complete && (decide (inputRows = 0) || lastRowId.isNone)) _ >>= fun _ =>
      refuse (!complete && rowIdBelow lastRowId previous.rowId) _ >>= fun _ => _) = _
  rw [above, moved, behind]
  rfl

end Shiba.Window
