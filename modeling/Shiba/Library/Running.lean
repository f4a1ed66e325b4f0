import Shiba.Library.Weighted

set_option autoImplicit false

namespace Running

open Weighted

universe u

variable {α : Type u}

-- The extreme of the sums that a list of amounts runs through, as a window
-- aggregate over the rows so far takes it.
def extreme (pick : Int → Int → Int) : List Int → Int
  | [] => 0
  | [amount] => amount
  | amount :: rest => pick amount (amount + extreme pick rest)

section

variable (pick : Int → Int → Int) (holds : Int → Prop)
  (splits : ∀ base a b, holds (base + pick a b) ↔ holds (base + a) ∧ holds (base + b))

include splits

-- What holds of the extreme holds of every sum on the way.
theorem extreme_holds (amounts : List Int) (present : amounts ≠ []) (base : Int) :
    holds (base + extreme pick amounts) ↔
      ∀ count, 0 < count → count ≤ amounts.length → holds (base + (amounts.take count).sum) := by
  induction amounts generalizing base with
  | nil => exact absurd rfl present
  | cons amount rest ih =>
      cases rest with
      | nil =>
          constructor
          · intro here count positive within
            obtain rfl : count = 1 := Nat.le_antisymm within positive
            simpa [extreme] using here
          · intro all
            simpa [extreme] using all 1 Nat.one_pos (Nat.le_refl 1)
      | cons second rest =>
          have later := ih (by simp) (base + amount)
          have steps : extreme pick (amount :: second :: rest) = pick amount (amount + extreme pick (second :: rest)) := rfl
          rw [steps, splits, ← Int.add_assoc, later]
          constructor
          · rintro ⟨first, all⟩ count positive within
            cases count with
            | zero => cases positive
            | succ count =>
                rw [List.take_succ_cons, List.sum_cons, ← Int.add_assoc]
                by_cases start : count = 0
                · subst start
                  simpa using first
                · exact all count (Nat.pos_of_ne_zero start) (Nat.le_of_succ_le_succ within)
          · intro all
            constructor
            · simpa using all 1 Nat.one_pos (by simp)
            · intro count positive within
              have next := all (count + 1) (Nat.succ_pos count) (Nat.succ_le_succ within)
              rwa [List.take_succ_cons, List.sum_cons, ← Int.add_assoc] at next

end

-- The amounts of the chosen items, in order.
def amountsOf (items : List (α × Int)) (chosen : α → Bool) : List Int :=
  (items.filter fun item => chosen item.1).map Prod.snd

theorem amounts_cons (item : α × Int) (items : List (α × Int)) (chosen : α → Bool) :
    amountsOf (item :: items) chosen =
      if chosen item.1 = true then item.2 :: amountsOf items chosen else amountsOf items chosen := by
  unfold amountsOf
  rw [List.filter_cons]
  by_cases hit : chosen item.1 = true
  · rw [if_pos hit, if_pos hit, List.map_cons]
  · rw [if_neg hit, if_neg hit]

section

variable (items : List (α × Int)) (chosen : α → Bool)

theorem amounts_sum : (amountsOf items chosen).sum = total items chosen := by
  induction items with
  | nil => rfl
  | cons item items ih =>
      rw [amounts_cons, total_cons, ← ih]
      by_cases hit : chosen item.1 = true
      · rw [if_pos hit, if_pos hit, List.sum_cons]
      · rw [if_neg hit, if_neg hit, Int.zero_add]

-- Amounts do not depend on how their items are named.
theorem amounts_map {β γ : Type*} (parts : List γ) (first : γ → α) (second : γ → β) (amount : γ → Int)
    (chosen : α → Bool) (other : β → Bool) (same : ∀ part ∈ parts, chosen (first part) = other (second part)) :
    amountsOf (parts.map fun part => (first part, amount part)) chosen =
      amountsOf (parts.map fun part => (second part, amount part)) other := by
  induction parts with
  | nil => rfl
  | cons part parts ih =>
      have rest := ih fun later member => same later (List.mem_cons_of_mem _ member)
      rw [List.map_cons, List.map_cons, amounts_cons, amounts_cons, rest, same part List.mem_cons_self]

-- The chosen items of a beginning are a beginning of the chosen items.
theorem amounts_take (length : Nat) :
    ∃ count, count ≤ (amountsOf items chosen).length ∧
      amountsOf (items.take length) chosen = (amountsOf items chosen).take count := by
  induction items generalizing length with
  | nil => exact ⟨0, Nat.zero_le _, by simp [amountsOf]⟩
  | cons item items ih =>
      cases length with
      | zero => exact ⟨0, Nat.zero_le _, by simp [amountsOf]⟩
      | succ length =>
          obtain ⟨count, within, same⟩ := ih length
          rw [List.take_succ_cons, amounts_cons, amounts_cons]
          by_cases hit : chosen item.1 = true
          · rw [if_pos hit, if_pos hit, same]
            exact ⟨count + 1, Nat.succ_le_succ within, rfl⟩
          · rw [if_neg hit, if_neg hit]
            exact ⟨count, within, same⟩

-- Every beginning of the chosen items is met on the way.
theorem amounts_met (count : Nat) (within : count ≤ (amountsOf items chosen).length) :
    ∃ length, amountsOf (items.take length) chosen = (amountsOf items chosen).take count := by
  induction items generalizing count with
  | nil => exact ⟨0, by simp [amountsOf]⟩
  | cons item items ih =>
      rw [amounts_cons] at within ⊢
      by_cases hit : chosen item.1 = true
      · rw [if_pos hit] at within ⊢
        cases count with
        | zero => exact ⟨0, rfl⟩
        | succ count =>
            obtain ⟨length, same⟩ := ih count (Nat.le_of_succ_le_succ within)
            refine ⟨length + 1, ?_⟩
            rw [List.take_succ_cons, amounts_cons, if_pos hit, same, List.take_succ_cons]
      · rw [if_neg hit] at within ⊢
        obtain ⟨length, same⟩ := ih count within
        refine ⟨length + 1, ?_⟩
        rw [List.take_succ_cons, amounts_cons, if_neg hit, same]

end

section

variable (pick : Int → Int → Int) (holds : Int → Prop)
  (splits : ∀ base a b, holds (base + pick a b) ↔ holds (base + a) ∧ holds (base + b))

include splits

-- The extreme over the chosen items speaks about every point of the whole list.
theorem extreme_totals (items : List (α × Int)) (chosen : α → Bool) (base : Int) (start : holds base) :
    holds (base + extreme pick (amountsOf items chosen)) ↔
      ∀ length, holds (base + total (items.take length) chosen) := by
  by_cases present : amountsOf items chosen = []
  · rw [present, extreme, Int.add_zero]
    constructor
    · intro _ length
      obtain ⟨count, _, same⟩ := amounts_take items chosen length
      rw [← amounts_sum, same, present, List.take_nil, List.sum_nil, Int.add_zero]
      exact start
    · exact fun _ => start
  · rw [extreme_holds pick holds splits _ present]
    constructor
    · intro all length
      obtain ⟨count, within, same⟩ := amounts_take items chosen length
      rw [← amounts_sum, same]
      by_cases none : count = 0
      · rw [none, List.take_zero, List.sum_nil, Int.add_zero]
        exact start
      · exact all count (Nat.pos_of_ne_zero none) within
    · intro all count _ within
      obtain ⟨length, same⟩ := amounts_met items chosen count within
      have here := all length
      rwa [← amounts_sum, same] at here

end

variable (items : List (α × Int)) (chosen : α → Bool) (base : Int)

theorem lowest_totals (start : 0 ≤ base) :
    0 ≤ base + extreme min (amountsOf items chosen) ↔ ∀ length, 0 ≤ base + total (items.take length) chosen :=
  extreme_totals min (fun sum => 0 ≤ sum) (fun base a b => by omega) items chosen base start

theorem highest_totals (limit : Int) (start : base ≤ limit) :
    base + extreme max (amountsOf items chosen) ≤ limit ↔ ∀ length, base + total (items.take length) chosen ≤ limit :=
  extreme_totals max (fun sum => sum ≤ limit) (fun base a b => by omega) items chosen base start

end Running
