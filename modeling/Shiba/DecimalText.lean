import Shiba.Postgres

set_option autoImplicit false

namespace Shiba

def decimalNumber (digits : List Char) : Option Nat :=
  if digits ≠ [] ∧ digits.all Char.isDigit = true then some (Nat.ofDigitChars 10 digits 0) else none

def withoutPlus : List Char → List Char
  | '+' :: rest => rest
  | digits => digits

-- text.parse::<u64>().
def parseU64 (text : String) : Option Nat :=
  (decimalNumber (withoutPlus text.toList)).filter fun value => decide (value < 2 ^ 64)

-- A numeric is a decimal with its display scale.
inductive Numeric where
  | nan
  | infinity (negative : Bool)
  | finite (unscaled : Int) (scale : Nat)
deriving DecidableEq, Repr

def numericOut : Numeric → List Char
  | .nan => "NaN".toList
  | .infinity negative => (if negative then "-Infinity" else "Infinity").toList
  | .finite unscaled scale =>
      let sign := if unscaled < 0 then ['-'] else []
      let whole := Nat.toDigits 10 (unscaled.natAbs / 10 ^ scale)
      let fraction := Nat.toDigits 10 (unscaled.natAbs % 10 ^ scale)
      sign ++ whole ++
        (if scale = 0 then [] else '.' :: (List.replicate (scale - fraction.length) '0' ++ fraction))

-- An optionally signed decimal, with a fraction or without one. The exponents
-- that numeric_in also reads are never written here.
def numericIn (text : String) : Except Fault Numeric :=
  let sign := text.toList.takeWhile fun digit => digit = '-' || digit = '+'
  let unsigned := text.toList.dropWhile fun digit => digit = '-' || digit = '+'
  let whole := unsigned.takeWhile (· ≠ '.')
  let fraction := (unsigned.dropWhile (· ≠ '.')).drop 1
  match decimalNumber (whole ++ fraction) with
  | some value =>
      if sign = ['-'] then .ok (.finite (-value) fraction.length)
      else if sign = [] ∨ sign = ['+'] then .ok (.finite value fraction.length)
      else .error (.raised "22P02" s!"invalid input syntax for type numeric: {text}")
  | none =>
      if text = "NaN" then .ok .nan
      else if text = "Infinity" then .ok (.infinity false)
      else if text = "-Infinity" then .ok (.infinity true)
      else .error (.raised "22P02" s!"invalid input syntax for type numeric: {text}")

-- numeric's =, which holds between any scales of one value, and between NaNs.
def Numeric.equal : Numeric → Numeric → Bool
  | .finite left leftScale, .finite right rightScale => decide (left * 10 ^ rightScale = right * 10 ^ leftScale)
  | left, right => decide (left = right)

theorem numeric_equal_self (value : Numeric) : value.equal value = true := by
  cases value <;> simp [Numeric.equal]

variable {α : Type} (keep : α → Bool) (items : List α) (value : Nat)

theorem decimal_number_digits : decimalNumber (Nat.toDigits 10 value) = some value := by
  have digits : (Nat.toDigits 10 value).all Char.isDigit = true :=
    List.all_eq_true.mpr fun _ member => Nat.isDigit_of_mem_toDigits (by decide) (by decide) member
  rw [decimalNumber, if_pos ⟨Nat.toDigits_ne_nil, digits⟩, Nat.ofDigitChars_ten_toDigits]

theorem digit_plain (digit : Char) (member : digit ∈ Nat.toDigits 10 value) :
    digit ≠ '+' ∧ digit ≠ '-' ∧ digit ≠ '.' := by
  have known := Nat.isDigit_of_mem_toDigits (by decide) (by decide) member
  refine ⟨?_, ?_, ?_⟩
  all_goals
    intro same
    subst same
    exact absurd known (by decide)

theorem without_plus_digits : withoutPlus (Nat.toDigits 10 value) = Nat.toDigits 10 value := by
  unfold withoutPlus
  split
  · rename_i rest signed
    have member : '+' ∈ Nat.toDigits 10 value := by
      rw [signed]
      exact List.mem_cons_self
    exact absurd rfl (digit_plain value '+' member).1
  · rfl

theorem decimal_number_plain (digits : List Char) (value : Nat) (number : decimalNumber digits = some value) :
    ∀ digit ∈ digits, digit ≠ '-' ∧ digit ≠ '.' ∧ digit ≠ 'N' ∧ digit ≠ 'I' := by
  intro digit member
  unfold decimalNumber at number
  split at number
  · rename_i shaped
    have known := List.all_eq_true.mp shaped.2 digit member
    refine ⟨?_, ?_, ?_, ?_⟩
    all_goals
      intro same
      subst same
      exact absurd known (by decide)
  · cases number

-- Behind an optional sign, only digits are a number.
theorem parse_u64_inv (text : String) (value : Nat) (read : parseU64 text = some value) :
    value < 2 ^ 64 ∧ ∀ digit ∈ text.toList, digit ≠ '-' ∧ digit ≠ '.' ∧ digit ≠ 'N' ∧ digit ≠ 'I' := by
  obtain ⟨number, small⟩ := Option.filter_eq_some_iff.mp read
  refine ⟨of_decide_eq_true small, ?_⟩
  unfold withoutPlus at number
  split at number
  · rename_i rest signed
    rw [signed]
    intro digit member
    rcases List.mem_cons.mp member with rfl | later
    · decide
    · exact decimal_number_plain rest value number digit later
  · exact decimal_number_plain _ value number

theorem parse_u64_digits (fits : value < 2 ^ 64) :
    parseU64 (String.ofList (Nat.toDigits 10 value)) = some value := by
  rw [parseU64, String.toList_ofList, without_plus_digits, decimal_number_digits, Option.filter_some,
    if_pos (decide_eq_true fits)]

-- A numeric whose text is an unsigned integer is that integer, without a scale.
theorem parse_u64_out (number : Numeric) (value : Nat) :
    parseU64 (String.ofList (numericOut number)) = some value ↔ number = .finite value 0 ∧ value < 2 ^ 64 := by
  constructor
  · intro read
    obtain ⟨fits, plain⟩ := parse_u64_inv _ _ read
    rw [String.toList_ofList] at plain
    cases number with
    | nan => exact absurd rfl (plain 'N' (by decide)).2.2.1
    | infinity negative =>
        cases negative with
        | false | true => exact absurd rfl (plain 'I' (by decide)).2.2.2
    | finite unscaled scale =>
        have natural : ¬unscaled < 0 := by
          intro negative
          have member : '-' ∈ numericOut (.finite unscaled scale) := by simp [numericOut, negative]
          exact absurd rfl (plain '-' member).1
        have whole : scale = 0 := by
          by_contra fractional
          have member : '.' ∈ numericOut (.finite unscaled scale) := by simp [numericOut, fractional]
          exact absurd rfl (plain '.' member).2.1
        subst whole
        have text : numericOut (.finite unscaled 0) = Nat.toDigits 10 unscaled.natAbs := by
          simp [numericOut, natural]
        rw [text] at read
        have small : unscaled.natAbs = value := by
          obtain ⟨number, _⟩ := Option.filter_eq_some_iff.mp read
          rw [String.toList_ofList, without_plus_digits, decimal_number_digits] at number
          exact Option.some.inj number
        subst small
        refine ⟨?_, fits⟩
        rw [Int.natAbs_of_nonneg (by omega)]
  · intro ⟨same, fits⟩
    subst same
    have text : numericOut (.finite value 0) = Nat.toDigits 10 value := by simp [numericOut]
    rw [text]
    exact parse_u64_digits value fits

theorem take_while_head (plain : ∀ item ∈ items, keep item = false) :
    items.takeWhile keep = [] ∧ items.dropWhile keep = items := by
  cases items with
  | nil => exact ⟨rfl, rfl⟩
  | cons item rest =>
      have first := plain item List.mem_cons_self
      exact ⟨List.takeWhile_cons_of_neg (by simp [first]), List.dropWhile_cons_of_neg (by simp [first])⟩

theorem take_while_all (kept : ∀ item ∈ items, keep item = true) :
    items.takeWhile keep = items ∧ items.dropWhile keep = [] := by
  induction items with
  | nil => exact ⟨rfl, rfl⟩
  | cons item rest ih =>
      have first := kept item List.mem_cons_self
      obtain ⟨taken, dropped⟩ := ih fun other member => kept other (List.mem_cons_of_mem _ member)
      exact ⟨by rw [List.takeWhile_cons_of_pos first, taken], by rw [List.dropWhile_cons_of_pos first, dropped]⟩

theorem numeric_in_digits : numericIn (String.ofList (Nat.toDigits 10 value)) = .ok (.finite value 0) := by
  obtain ⟨unsigned, digits⟩ := take_while_head (fun digit => digit = '-' || digit = '+') (Nat.toDigits 10 value)
    (fun digit member => by simp [digit_plain value digit member])
  obtain ⟨whole, unscaled⟩ := take_while_all (fun digit => decide (digit ≠ '.')) (Nat.toDigits 10 value)
    (fun digit member => by simp [digit_plain value digit member])
  unfold numericIn
  simp only [String.toList_ofList, unsigned, digits, whole, unscaled, List.drop_nil, List.append_nil, decimal_number_digits,
    List.length_nil]
  rfl

end Shiba
