import Mathlib.Tactic

set_option autoImplicit false

namespace Budget

universe u

variable {α : Type u}

-- The rows a running total admits: the first one always, and every later one
-- whose prefix up to and including it still fits.
def withinBudget (fits : List α → Bool) (items : List α) : List α :=
  (items.zipIdx.filter fun (_, index) => decide (index = 0) || fits (items.take (index + 1))).map Prod.fst

theorem filter_index_prefix (keep : Nat → Bool) (down : ∀ index, keep (index + 1) = true → keep index = true)
    (items : List α) (offset : Nat) :
    ∃ count, ((items.zipIdx offset).filter fun item => keep item.2).map Prod.fst = items.take count ∧
      (items ≠ [] → keep offset = true → 0 < count) ∧ ∀ index < count, keep (offset + index) = true := by
  induction items generalizing offset with
  | nil => exact ⟨0, by simp, by simp, by simp⟩
  | cons head tail ih =>
      cases hit : keep offset with
      | true =>
          obtain ⟨count, same, _, within⟩ := ih (offset + 1)
          refine ⟨count + 1, ?_, fun _ _ => Nat.succ_pos count, ?_⟩
          · simp [List.zipIdx_cons, hit, same]
          · intro index below
            cases index with
            | zero => exact hit
            | succ index =>
                have kept := within index (Nat.lt_of_succ_lt_succ below)
                rwa [Nat.add_assoc, Nat.add_comm 1 index] at kept
      | false =>
          have above : ∀ step, keep (offset + step) = false := by
            intro step
            induction step with
            | zero => exact hit
            | succ step below => exact Bool.eq_false_iff.mpr fun on => Bool.eq_false_iff.mp below (down _ on)
          refine ⟨0, ?_, fun _ on => by simp at on, by simp⟩
          rw [List.take_zero, List.map_eq_nil_iff, List.filter_eq_nil_iff]
          rintro ⟨item, index⟩ member
          obtain ⟨low, _⟩ := List.mem_zipIdx member
          obtain ⟨step, rfl⟩ := Nat.exists_eq_add_of_le low
          simp [above step]

section

variable (fits : List α → Bool) (items : List α)
  (down : ∀ index, fits (items.take (index + 1)) = true → fits (items.take index) = true)

include down

-- A budget that only a longer prefix can break selects a prefix, and it
-- selects something whenever there is something. Only one item may not fit.
theorem within_budget_prefix :
    ∃ count, withinBudget fits items = items.take count ∧ (items ≠ [] → 0 < count) ∧
      (1 < count → fits (items.take count) = true) := by
  obtain ⟨count, same, some, within⟩ := filter_index_prefix
    (fun index => decide (index = 0) || fits (items.take (index + 1)))
    (by
      intro index on
      have later : fits (items.take (index + 1 + 1)) = true := by simpa using on
      simp [down (index + 1) later])
    items 0
  refine ⟨count, same, fun present => some present (by simp), ?_⟩
  intro several
  have last := within (count - 1) (by omega)
  have whole : count - 1 + 1 = count := by omega
  have notFirst : ¬ count - 1 = 0 := by omega
  simpa [whole, notFirst] using last

-- Everything is selected exactly when it fits, or is a single item.
theorem within_budget_whole :
    withinBudget fits items = items ↔ items.length ≤ 1 ∨ fits items = true := by
  obtain ⟨count, same, _, whole⟩ := within_budget_prefix fits items down
  constructor
  · intro all
    rw [same] at all
    by_cases several : 1 < count
    · have taken := whole several
      rw [all] at taken
      exact .inr taken
    · have length := congrArg List.length all
      rw [List.length_take] at length
      exact .inl (by omega)
  · intro fitting
    have below : ∀ back, back ≤ items.length → fits items = true → fits (items.take (items.length - back)) = true := by
      intro back
      induction back with
      | zero =>
          intro _ here
          rwa [Nat.sub_zero, List.take_length]
      | succ back ih =>
          intro within here
          have onward : items.length - (back + 1) + 1 = items.length - back := by omega
          exact down _ (onward ▸ ih (by omega) here)
    have kept : ∀ item ∈ items.zipIdx,
        (decide (item.2 = 0) || fits (items.take (item.2 + 1))) = true := by
      rintro ⟨item, index⟩ member
      obtain ⟨_, low, _⟩ := List.mem_zipIdx member
      rcases fitting with single | here
      · have first : index = 0 := by omega
        simp [first]
      · have back := below (items.length - (index + 1)) (by omega) here
        have onward : items.length - (items.length - (index + 1)) = index + 1 := by omega
        rw [onward] at back
        simp [back]
    unfold withinBudget
    rw [List.filter_eq_self.mpr kept, List.zipIdx_map_fst]

end

theorem take_sum_le {weight : α → Nat} {items : List α} {index limit : Nat}
    (fits : ((items.take (index + 1)).map weight).sum ≤ limit) : ((items.take index).map weight).sum ≤ limit := by
  refine Nat.le_trans ?_ fits
  rw [List.take_add_one, List.map_append, List.sum_append]
  exact Nat.le_add_right _ _

-- Removing the items of a prefix by their keys leaves the rest.
theorem filter_not_taken {κ : Type*} [DecidableEq κ] {key : α → κ} {items : List α} (distinct : (items.map key).Nodup)
    (count : Nat) : (items.filter fun item => decide (key item ∉ (items.take count).map key)) = items.drop count := by
  have whole := List.take_append_drop count items
  have first : ((items.take count).filter fun item => decide (key item ∉ (items.take count).map key)) = [] := by
    rw [List.filter_eq_nil_iff]
    intro item member
    simp only [decide_eq_true_eq, not_not]
    exact List.mem_map_of_mem member
  have second : ((items.drop count).filter fun item => decide (key item ∉ (items.take count).map key)) =
      items.drop count := by
    rw [List.filter_eq_self]
    intro item member
    apply decide_eq_true
    intro taken
    rw [← whole, List.map_append, List.nodup_append] at distinct
    exact distinct.2.2 _ taken _ (List.mem_map_of_mem member) rfl
  calc (items.filter fun item => decide (key item ∉ (items.take count).map key))
      = ((items.take count ++ items.drop count).filter fun item => decide (key item ∉ (items.take count).map key)) := by
        rw [whole]
    _ = items.drop count := by rw [List.filter_append, first, second, List.nil_append]

-- Of items with rising keys those below a bound come first.
theorem filter_below_prefix (key : α → Nat) (items : List α) (rising : (items.map key).Pairwise (· < ·)) (bound : Nat) :
    ∃ count, (items.filter fun item => decide (key item < bound)) = items.take count := by
  induction items with
  | nil => exact ⟨0, rfl⟩
  | cons head tail ih =>
      rw [List.map_cons, List.pairwise_cons] at rising
      by_cases low : key head < bound
      · obtain ⟨count, same⟩ := ih rising.2
        refine ⟨count + 1, ?_⟩
        rw [List.filter_cons_of_pos (by simpa using low), same, List.take_succ_cons]
      · refine ⟨0, ?_⟩
        rw [List.take_zero, List.filter_eq_nil_iff]
        intro item member
        simp only [decide_eq_true_eq, Nat.not_lt]
        rcases List.mem_cons.mp member with rfl | later
        · exact Nat.le_of_not_lt low
        · exact Nat.le_trans (Nat.le_of_not_lt low) (Nat.le_of_lt (rising.1 _ (List.mem_map_of_mem later)))

end Budget
