import Shiba.Postgres

set_option autoImplicit false

namespace Shiba.Execution

-- i64::try_from of a wider integer, and the range of a bigint.
def isBigint (value : Int) : Bool := decide (-(bigintMax : Int) - 1 ≤ value) && decide (value ≤ bigintMax)

-- The value of a bigint expression.
def bigint (value : Int) : Except Fault Int := if isBigint value then .ok value else .error (.failed "bigint out of range")

def bigintDiv (dividend divisor : Int) : Except Fault Int :=
  if divisor = 0 then .error (.failed "division by zero") else bigint (dividend.tdiv divisor)

def bigintMod (dividend divisor : Int) : Except Fault Int :=
  if divisor = 0 then .error (.failed "division by zero") else bigint (dividend.tmod divisor)

theorem is_bigint_iff (value : Int) : isBigint value = true ↔ -(bigintMax : Int) - 1 ≤ value ∧ value ≤ bigintMax := by
  rw [isBigint, Bool.and_eq_true, decide_eq_true_eq, decide_eq_true_eq]

theorem bigint_ok (value : Int) (low : -(bigintMax : Int) - 1 ≤ value) (high : value ≤ bigintMax) : bigint value = .ok value := by
  rw [bigint, (is_bigint_iff value).mpr ⟨low, high⟩, if_pos rfl]

theorem bigint_natural (value : Nat) (high : value ≤ bigintMax) : bigint (value : Int) = .ok (value : Int) :=
  bigint_ok _ (by omega) (by omega)

theorem bigint_over (value : Int) (beyond : (bigintMax : Int) < value) : bigint value = .error (.failed "bigint out of range") := by
  rw [bigint, if_neg]
  rw [is_bigint_iff]
  omega

theorem bigint_div_natural {dividend divisor : Nat} (positive : 0 < divisor) (high : dividend ≤ bigintMax) :
    bigintDiv dividend divisor = .ok ((dividend / divisor : Nat) : Int) := by
  have below := Nat.div_le_self dividend divisor
  rw [bigintDiv, if_neg (by omega), ← Int.ofNat_tdiv]
  exact bigint_natural _ (by omega)

theorem bigint_mod_natural (dividend divisor : Nat) (positive : 0 < divisor) (high : dividend ≤ bigintMax) :
    bigintMod dividend divisor = .ok ((dividend % divisor : Nat) : Int) := by
  have below := Nat.mod_le dividend divisor
  rw [bigintMod, if_neg (by omega), ← Int.ofNat_tmod]
  exact bigint_natural _ (by omega)

end Shiba.Execution
