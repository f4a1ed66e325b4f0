import Mathlib.Tactic
import Shiba.Library.Budget

set_option autoImplicit false

namespace Portions

-- What one portion takes of a limit of rows and bytes, by the size of its first
-- row: a first row over the byte limit is taken alone.
structure Taken (rows bytes maxRows maxBytes : Nat) (first : Option Nat) : Prop where
  rowLimit : rows ≤ maxRows
  nothing : first = none → rows = 0 ∧ bytes = 0
  filled : ∀ size, first = some size → 0 < rows ∧ size ≤ bytes
  small : ∀ size, first = some size → size ≤ maxBytes → bytes ≤ maxBytes
  alone : ∀ size, first = some size → maxBytes < size → rows = 1 ∧ bytes = size

-- The first row of the portion fits what is left, or it is the first of all.
def Room (used maxBytes : Nat) (first : Option Nat) : Prop := ∀ size, first = some size → size ≤ maxBytes ∨ used = 0

-- A whole inside its limits; a single row may pass the byte limit.
def Whole (rows bytes maxRows maxBytes : Nat) : Prop := rows ≤ maxRows ∧ (bytes ≤ maxBytes ∨ rows = 1)

-- A portion that is whole by itself, by the sizes of its rows.
theorem taken_of_sizes (sizes : List Nat) (maxRows maxBytes : Nat) (whole : Whole sizes.length sizes.sum maxRows maxBytes) :
    Taken sizes.length sizes.sum maxRows maxBytes sizes.head? := by
  obtain ⟨rowLimit, byteLimit⟩ := whole
  cases sizes with
  | nil =>
      refine ⟨rowLimit, fun _ => ⟨rfl, rfl⟩, ?_, ?_, ?_⟩ <;> intro size wrong <;> cases wrong
  | cons head tail =>
      have alone : tail.length + 1 = 1 → (head :: tail).sum = head := by
        intro single
        rw [List.length_eq_zero_iff.mp (Nat.succ.inj single)]
        rfl
      rw [List.length_cons] at rowLimit byteLimit ⊢
      have total : head ≤ (head :: tail).sum := by
        rw [List.sum_cons]
        exact Nat.le_add_right _ _
      refine ⟨rowLimit, ?_, ?_, ?_, ?_⟩
      · intro wrong
        cases wrong
      · intro size same
        obtain rfl := Option.some.inj same
        exact ⟨Nat.succ_pos _, total⟩
      · intro size same fits
        obtain rfl := Option.some.inj same
        rcases byteLimit with inside | single
        · exact inside
        · rw [alone single]
          exact fits
      · intro size same large
        obtain rfl := Option.some.inj same
        have single : tail.length + 1 = 1 := by omega
        exact ⟨single, alone single⟩

-- What a portion takes is a word where its limit and its first row are words.
theorem bytes_of_word {rows bytes maxRows maxBytes word : Nat} {first : Option Nat} (taken : Taken rows bytes maxRows maxBytes first)
    (limit : maxBytes ≤ word) (measured : ∀ size, first = some size → size ≤ word) : bytes ≤ word := by
  cases next : first with
  | none =>
      obtain ⟨_, none⟩ := taken.nothing next
      omega
  | some size =>
      by_cases fits : size ≤ maxBytes
      · exact Nat.le_trans (taken.small size next fits) limit
      · obtain ⟨_, whole⟩ := taken.alone size next (Nat.lt_of_not_le fits)
        rw [whole]
        exact measured size next

-- LIMIT and then the running bytes select a whole prefix, which is empty only
-- when there is nothing to select.
theorem page_prefix {α : Type*} (size : α → Nat) (items : List α) {maxRows : Nat} (maxBytes : Nat) (some : 0 < maxRows) :
    ∃ count, Budget.withinBudget (fun page => decide ((page.map size).sum ≤ maxBytes)) (items.take maxRows) = items.take count ∧
      (items ≠ [] → 0 < count) ∧ Whole (items.take count).length ((items.take count).map size).sum maxRows maxBytes := by
  obtain ⟨count, selected, filled, several⟩ := Budget.within_budget_prefix
    (fun page => decide ((page.map size).sum ≤ maxBytes)) (items.take maxRows) (by
      intro index fits
      exact decide_eq_true (Budget.take_sum_le (of_decide_eq_true fits)))
  rw [selected, List.take_take]
  refine ⟨min count maxRows, rfl, ?_, ?_, ?_⟩
  · intro present
    have chosen := filled (by
      intro wrong
      rcases List.take_eq_nil_iff.mp wrong with zero | empty
      · omega
      · exact present empty)
    omega
  · rw [List.length_take]
    omega
  · by_cases many : 1 < count
    · left
      rw [← List.take_take]
      exact of_decide_eq_true (several many)
    · by_cases nothing : items.take (min count maxRows) = []
      · left
        rw [nothing]
        exact Nat.zero_le _
      · right
        have length := List.length_pos_iff.mpr nothing
        rw [List.length_take] at length ⊢
        omega

variable (rows bytes usedRows usedBytes limitRows limitBytes : Nat) (first : Option Nat)
  (rowsOpen : usedRows < limitRows) (bytesOpen : usedBytes < limitBytes)
  (taken : Taken rows bytes (limitRows - usedRows) (limitBytes - usedBytes) first)

include rowsOpen bytesOpen taken

theorem whole_of_room (room : Room usedRows (limitBytes - usedBytes) first) :
    Whole (usedRows + rows) (usedBytes + bytes) limitRows limitBytes := by
  have rowLimit := taken.rowLimit
  refine ⟨by omega, ?_⟩
  cases next : first with
  | none =>
      obtain ⟨_, none⟩ := taken.nothing next
      left
      omega
  | some size =>
      by_cases fits : size ≤ limitBytes - usedBytes
      · have inside := taken.small size next fits
        left
        omega
      · obtain ⟨single, _⟩ := taken.alone size next (Nat.lt_of_not_le fits)
        right
        rcases room size next with wrong | unused
        · exact absurd wrong fits
        · omega

omit rowsOpen in
theorem over_of_no_room (full : ¬ Room usedRows (limitBytes - usedBytes) first) :
    limitBytes < usedBytes + bytes ∧ 1 < usedRows + rows ∧ 0 < usedRows := by
  unfold Room at full
  push Not at full
  obtain ⟨size, next, large, used⟩ := full
  obtain ⟨single, whole⟩ := taken.alone size next large
  omega

omit rowsOpen in
-- After a portion with room, later rows stay under the limit of bytes.
theorem bytes_of_later (room : Room usedRows (limitBytes - usedBytes) first) (later : 0 < usedRows) :
    usedBytes + bytes ≤ limitBytes := by
  cases next : first with
  | none =>
      obtain ⟨_, none⟩ := taken.nothing next
      omega
  | some size =>
      rcases room size next with fits | unused
      · have inside := taken.small size next fits
        omega
      · omega

end Portions
