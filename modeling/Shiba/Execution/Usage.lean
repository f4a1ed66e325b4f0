import Shiba.Execution.Contract
import Shiba.Library.Portions

set_option autoImplicit false

namespace Shiba.Execution

open Portions

-- The check of a whole usage is that both of its sides are whole.
theorem validate_whole (usage : WorkUsage) (budget : WorkBudget) :
    usage.validate budget = .ok () ↔
      Whole usage.inputRows usage.inputBytes budget.maxInputRows budget.maxInputBytes ∧
        Whole usage.outputRows usage.outputBytes budget.maxOutputRows budget.maxOutputBytes := by
  have dimension (rows bytes maxRows maxBytes : Nat) (name : String) :
      validateDimension rows bytes maxRows maxBytes name = .ok () ↔ Whole rows bytes maxRows maxBytes := by
    rw [validateDimension, refuse_bind_ok, refuse_ok, decide_eq_false_iff_not, Bool.and_eq_false_iff, decide_eq_false_iff_not,
      decide_eq_false_iff_not]
    unfold Whole
    omega
  rw [WorkUsage.validate, bind_ok_iff, dimension]
  constructor
  · intro accepted
    obtain ⟨_, input, output⟩ := accepted
    exact ⟨(dimension _ _ _ _ _).mp input, output⟩
  · intro whole
    exact ⟨(), (dimension _ _ _ _ _).mpr whole.1, whole.2⟩

end Shiba.Execution
