import Shiba.Postgres

set_option autoImplicit false

namespace Shiba

def hexDigit (digit : Char) : Option Nat :=
  if '0' ≤ digit ∧ digit ≤ '9' then some (digit.toNat - 48)
  else if 'A' ≤ digit ∧ digit ≤ 'F' then some (digit.toNat - 55)
  else if 'a' ≤ digit ∧ digit ≤ 'f' then some (digit.toNat - 87)
  else none

def hexNumber (digits : List Char) : Option Nat :=
  digits.foldl (fun total digit => total.bind fun total => (hexDigit digit).map fun value => 16 * total + value) (some 0)

-- u32::from_str_radix(text, 16).
def hexWord (text : List Char) : Option Nat :=
  let digits := match text with
    | '+' :: rest => rest
    | _ => text
  if digits = [] then none else (hexNumber digits).filter fun word => decide (word < 2 ^ 32)

def lsnOf (high low : Nat) : Lsn := high * 2 ^ 32 + low

def parseLsn (text : String) : Except Fault Lsn :=
  let high := text.toList.takeWhile (· ≠ '/')
  match text.toList.dropWhile (· ≠ '/') with
  | [] => .error (.failed "LSN is missing slash")
  | _ :: low =>
      match hexWord high with
      | none => .error (.failed "invalid high LSN word")
      | some high =>
          match hexWord low with
          | none => .error (.failed "invalid low LSN word")
          | some low => .ok (lsnOf high low)

-- PostgreSQL's pg_lsn: one to eight hexadecimal digits on each side of a slash.
def pgLsnWord (text : List Char) : Option Nat :=
  if text.length ∈ [1, 2, 3, 4, 5, 6, 7, 8] then hexNumber text else none

def pgLsnIn (text : String) : Except Fault Lsn :=
  let high := text.toList.takeWhile (· ≠ '/')
  let low := (text.toList.dropWhile (· ≠ '/')).drop 1
  match pgLsnWord high, pgLsnWord low with
  | some high, some low => .ok (lsnOf high low)
  | _, _ => .error (.raised "22P02" s!"invalid input syntax for type pg_lsn: {text}")

def hexDigits (word : Nat) : List Char := (Nat.toDigits 16 word).map Char.toUpper

-- "%X/%X".
def pgLsnOut (lsn : Lsn) : String :=
  String.ofList (hexDigits (lsn / 2 ^ 32)) ++ "/" ++ String.ofList (hexDigits (lsn % 2 ^ 32))

theorem hex_digit_upper (digit : Nat) (small : digit < 16) : hexDigit digit.digitChar.toUpper = some digit := by
  decide +revert

theorem upper_slash (digit : Nat) (small : digit < 16) : digit.digitChar.toUpper ≠ '/' ∧ digit.digitChar.toUpper ≠ '+' := by
  decide +revert

theorem hex_number_append (first second : List Char) :
    hexNumber (first ++ second) =
      second.foldl (fun total digit => total.bind fun total => (hexDigit digit).map fun value => 16 * total + value)
        (hexNumber first) := by
  simp only [hexNumber, List.foldl_append]

variable (lsn : Lsn) (word : Nat)

-- By induction on the number: its last digit is what is left over.
theorem hex_number_digits : hexNumber (hexDigits word) = some word := by
  induction word using Nat.strong_induction_on with
  | _ word ih =>
      by_cases small : word < 16
      · rw [hexDigits, Nat.toDigits_of_lt_base small]
        simp only [List.map_cons, List.map_nil, hexNumber, List.foldl_cons, List.foldl_nil, Option.bind_some,
          hex_digit_upper word small, Option.map_some, Nat.mul_zero, Nat.zero_add]
      · have last : word % 16 < 16 := Nat.mod_lt word (by omega)
        have earlier := ih (word / 16) (by omega)
        rw [hexDigits] at earlier
        rw [hexDigits, Nat.toDigits_of_base_le (by omega) (Nat.le_of_not_lt small), List.map_append, hex_number_append, earlier]
        simp only [List.map_cons, List.map_nil, List.foldl_cons, List.foldl_nil, Option.bind_some,
          hex_digit_upper _ last, Option.map_some]
        rw [Nat.div_add_mod]

theorem digits_apart : ∀ digit ∈ hexDigits word, digit ≠ '/' ∧ digit ≠ '+' := by
  induction word using Nat.strong_induction_on with
  | _ word ih =>
      by_cases small : word < 16
      · rw [hexDigits, Nat.toDigits_of_lt_base small]
        intro digit member
        rw [List.mem_singleton.mp member]
        exact upper_slash word small
      · have last : word % 16 < 16 := Nat.mod_lt word (by omega)
        rw [hexDigits, Nat.toDigits_of_base_le (by omega) (Nat.le_of_not_lt small), List.map_append]
        intro digit member
        rcases List.mem_append.mp member with early | final
        · exact ih (word / 16) (by omega) digit early
        · rw [List.mem_singleton.mp final]
          exact upper_slash _ last

theorem digits_length (fits : word < 2 ^ 32) :
    0 < (hexDigits word).length ∧ (hexDigits word).length ≤ 8 := by
  rw [hexDigits, List.length_map]
  refine ⟨Nat.length_toDigits_pos, (Nat.length_toDigits_le_iff (by omega) (by omega)).mpr ?_⟩
  exact fits

theorem hex_number_zeros (count : Nat) (digits : List Char) :
    hexNumber (List.replicate count '0' ++ digits) = hexNumber digits := by
  induction count with
  | zero => rfl
  | succ count ih =>
      rw [← ih]
      rfl

theorem parted (high low : List Char) (apart : ∀ digit ∈ high, digit ≠ '/') :
    (String.ofList high ++ "/" ++ String.ofList low).toList.takeWhile (· ≠ '/') = high ∧
      (String.ofList high ++ "/" ++ String.ofList low).toList.dropWhile (· ≠ '/') = '/' :: low := by
  have text : (String.ofList high ++ "/" ++ String.ofList low).toList = high ++ '/' :: low := by
    simp only [String.toList_append, String.toList_ofList, List.append_assoc]
    rfl
  rw [text]
  induction high with
  | nil => exact ⟨rfl, rfl⟩
  | cons digit rest ih =>
      obtain ⟨taken, dropped⟩ := ih (fun other member => apart other (List.mem_cons_of_mem _ member)) (by
        simp only [String.toList_append, String.toList_ofList, List.append_assoc]
        rfl)
      have other : (fun digit : Char => decide (digit ≠ '/')) digit = true := decide_eq_true (apart digit List.mem_cons_self)
      constructor
      · rw [List.cons_append, List.takeWhile_cons, if_pos other, taken]
      · rw [List.cons_append, List.dropWhile_cons, if_pos other, dropped]

theorem hex_word_digits (fits : word < 2 ^ 32) : hexWord (hexDigits word) = some word := by
  have filled := (digits_length word fits).1
  have number := hex_number_digits word
  have apart := digits_apart word
  unfold hexWord
  cases digits : hexDigits word with
  | nil =>
      rw [digits] at filled
      exact absurd filled (Nat.lt_irrefl 0)
  | cons first rest =>
      rw [digits] at number apart
      have plain := (apart first List.mem_cons_self).2
      split
      · rename_i same
        exact absurd (List.cons.inj same).1 plain
      · simp only [if_neg (List.cons_ne_nil first rest), number]
        exact Option.filter_some_pos (decide_eq_true fits)

theorem lsn_words : lsnOf (lsn / 2 ^ 32) (lsn % 2 ^ 32) = lsn := by
  rw [lsnOf, Nat.mul_comm]
  exact Nat.div_add_mod lsn (2 ^ 32)

theorem lsn_word_bounds (fits : lsn < 2 ^ 64) : lsn / 2 ^ 32 < 2 ^ 32 ∧ lsn % 2 ^ 32 < 2 ^ 32 :=
  ⟨Nat.div_lt_of_lt_mul fits, Nat.mod_lt lsn (Nat.two_pow_pos 32)⟩

-- What the column's own text reads as.
theorem parse_lsn_out (fits : lsn < 2 ^ 64) : parseLsn (pgLsnOut lsn) = .ok lsn := by
  obtain ⟨high, low⟩ := lsn_word_bounds lsn fits
  obtain ⟨taken, dropped⟩ := parted (hexDigits (lsn / 2 ^ 32)) (hexDigits (lsn % 2 ^ 32))
    (fun digit member => (digits_apart _ digit member).1)
  rw [parseLsn, pgLsnOut, taken, dropped]
  simp only [hex_word_digits _ high, hex_word_digits _ low, lsn_words]

theorem pg_lsn_word_padded (fits : word < 2 ^ 32) :
    pgLsnWord (List.replicate (8 - (hexDigits word).length) '0' ++ hexDigits word) = some word := by
  have short := (digits_length word fits).2
  have whole : (List.replicate (8 - (hexDigits word).length) '0' ++ hexDigits word).length = 8 := by
    rw [List.length_append, List.length_replicate]
    omega
  rw [pgLsnWord, whole, if_pos (by decide), hex_number_zeros, hex_number_digits]

theorem pg_lsn_word_digits (fits : word < 2 ^ 32) : pgLsnWord (hexDigits word) = some word := by
  obtain ⟨filled, short⟩ := digits_length word fits
  have listed : (hexDigits word).length ∈ [1, 2, 3, 4, 5, 6, 7, 8] := by
    simp only [List.mem_cons, List.not_mem_nil, or_false]
    omega
  rw [pgLsnWord, if_pos listed, hex_number_digits]

-- What the column holds of a formatted position.
theorem pg_lsn_in_format (fits : lsn < 2 ^ 64) : pgLsnIn (formatLsn lsn) = .ok lsn := by
  obtain ⟨high, low⟩ := lsn_word_bounds lsn fits
  have shape : formatLsn lsn = String.ofList (hexDigits (lsn / 2 ^ 32)) ++ "/" ++
      String.ofList (List.replicate (8 - (hexDigits (lsn % 2 ^ 32)).length) '0' ++ hexDigits (lsn % 2 ^ 32)) := rfl
  obtain ⟨taken, dropped⟩ := parted (hexDigits (lsn / 2 ^ 32))
    (List.replicate (8 - (hexDigits (lsn % 2 ^ 32)).length) '0' ++ hexDigits (lsn % 2 ^ 32))
    (fun digit member => (digits_apart _ digit member).1)
  rw [pgLsnIn, shape, taken, dropped]
  simp only [List.drop_succ_cons, List.drop_zero, pg_lsn_word_digits _ high, pg_lsn_word_padded _ low, lsn_words]

end Shiba
