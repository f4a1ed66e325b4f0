import Mathlib.Tactic

set_option autoImplicit false

namespace Shiba

-- A pg_lsn is only ever compared, so it is its 64-bit position as a number.
abbrev Lsn := Nat
abbrev Oid := Nat

def bigintMax : Nat := 9223372036854775807
def xidMax : Nat := 4294967295

-- What a PL/pgSQL body, a table constraint or a Rust `Result` can report. Each
-- of them aborts the surrounding transaction.
inductive Fault where
  | raised (errcode message : String)
  | constraint (name : String)
  | failed (message : String)
deriving DecidableEq, Repr

-- `if bad { return Err(message) }`.
def refuse (bad : Bool) (message : String) : Except Fault Unit := if bad then .error (.failed message) else .ok ()

section

variable {α β : Type} {result : β} {bad : Bool} {message : String} (current : Option Lsn)

theorem not_refused (message : String) : refuse false message = .ok () := rfl

@[simp] theorem refuse_ok : refuse bad message = .ok () ↔ bad = false := by
  unfold refuse
  cases bad <;> simp

@[simp] theorem ok_bind (value : α) (next : α → Except Fault β) : (Except.ok value >>= next) = next value := rfl

theorem bind_ok_iff {value : Except Fault α} {next : α → Except Fault β} :
    (value >>= next) = .ok result ↔ ∃ input, value = .ok input ∧ next input = .ok result := by
  cases value <;> simp [bind, Except.bind]

theorem refuse_bind_ok {next : Unit → Except Fault β} :
    (refuse bad message >>= next) = .ok result ↔ bad = false ∧ next () = .ok result := by
  rw [bind_ok_iff]
  constructor
  · rintro ⟨_, good, rest⟩
    exact ⟨refuse_ok.mp good, rest⟩
  · rintro ⟨good, rest⟩
    exact ⟨(), refuse_ok.mpr good, rest⟩

-- A check that passed has no other trace.
theorem past_check {check : Except Fault α} {next : Except Fault β} (ok : (check >>= fun _ => next) = .ok result) :
    next = .ok result := by
  obtain ⟨_, _, rest⟩ := bind_ok_iff.mp ok
  exact rest

theorem except_map_ok {result : Except Fault α} {change : α → β} {value : β} (mapped : result.map change = .ok value) :
    ∃ before, result = .ok before ∧ change before = value := by
  cases result with
  | error fault => cases mapped
  | ok before => exact ⟨before, rfl, Except.ok.inj mapped⟩

def checkedAdd (a b : Nat) (message : String) : Except Fault Nat :=
  if a + b ≤ bigintMax then .ok (a + b) else .error (.failed message)

theorem checked_add_ok {a b sum : Nat} (added : checkedAdd a b message = .ok sum) :
    sum = a + b ∧ a + b ≤ bigintMax := by
  unfold checkedAdd at added
  split at added
  · rename_i fits
    exact ⟨(Except.ok.inj added).symm, fits⟩
  · cases added

-- The source pads the low word to eight digits: format!("{:X}/{:08X}").
def formatLsn (lsn : Lsn) : String :=
  let high := ((Nat.toDigits 16 (lsn / 2 ^ 32)).map Char.toUpper)
  let low := ((Nat.toDigits 16 (lsn % 2 ^ 32)).map Char.toUpper)
  String.ofList high ++ "/" ++ String.ofList (List.replicate (8 - low.length) '0' ++ low)

example : formatLsn 4294967296 = "1/00000000" := by decide

-- greatest(a, b) over a nullable left argument.
def greatestLsn (current : Option Lsn) (lsn : Lsn) : Lsn :=
  match current with
  | none => lsn
  | some value => max value lsn

theorem greatest_lsn_le (lsn bound : Lsn) (earlier : ∀ value, current = some value → value ≤ bound) (within : lsn ≤ bound) :
    greatestLsn current lsn ≤ bound := by
  cases current with
  | none => exact within
  | some value => exact Nat.max_le.mpr ⟨earlier value rfl, within⟩

theorem greatest_lsn_ge (lsn : Lsn) : lsn ≤ greatestLsn current lsn := by
  cases current with
  | none => exact Nat.le_refl lsn
  | some value => exact Nat.le_max_right value lsn

theorem greatest_lsn_cases (lsn : Lsn) :
    greatestLsn current lsn = lsn ∨ current = some (greatestLsn current lsn) := by
  cases current with
  | none => exact .inl rfl
  | some value =>
      rcases Nat.le_total value lsn with low | high
      · exact .inl (Nat.max_eq_right low)
      · exact .inr (congrArg some (Nat.max_eq_left high).symm)

end

-- `current IS NOT NULL AND lsn <= current`.
def reachedBy (current : Option Lsn) (lsn : Lsn) : Bool :=
  match current with
  | none => false
  | some value => decide (lsn ≤ value)

@[simp] theorem reached_by_none (lsn : Lsn) : reachedBy none lsn = false := rfl

@[simp] theorem reached_by_some (value lsn : Lsn) : reachedBy (some value) lsn = decide (lsn ≤ value) := rfl

-- `current IS NOT NULL AND lsn < current`.
def behind (current : Option Lsn) (lsn : Lsn) : Bool :=
  match current with
  | none => false
  | some value => decide (lsn < value)

@[simp] theorem behind_none (lsn : Lsn) : behind none lsn = false := rfl

@[simp] theorem behind_some (value lsn : Lsn) : behind (some value) lsn = decide (lsn < value) := rfl

-- pg_lsn columns that may still be NULL, ordered with NULL first.
def lsnLe (earlier later : Option Lsn) : Prop := ∀ lsn, earlier = some lsn → ∃ after, later = some after ∧ lsn ≤ after

theorem lsn_le_refl (lsn : Option Lsn) : lsnLe lsn lsn := fun value same => ⟨value, same, Nat.le_refl value⟩

theorem lsn_le_trans (a b c : Option Lsn) (ab : lsnLe a b) (bc : lsnLe b c) : lsnLe a c := by
  intro lsn same
  obtain ⟨middle, isMiddle, low⟩ := ab lsn same
  obtain ⟨high, isHigh, up⟩ := bc middle isMiddle
  exact ⟨high, isHigh, Nat.le_trans low up⟩

end Shiba
