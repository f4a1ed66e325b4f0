import Mathlib.Tactic

set_option autoImplicit false

namespace Thresholds

-- A counter that rises from one value to another meets a mark of the set.
def Crosses (marks : Set Nat) (before after : Nat) : Prop := ∃ mark ∈ marks, before < mark ∧ mark ≤ after

theorem crosses_mono {marks : Set Nat} {low before after high : Nat} (below : low ≤ before) (above : after ≤ high)
    (crossed : Crosses marks before after) : Crosses marks low high := by
  obtain ⟨mark, isMark, passed, reached⟩ := crossed
  exact ⟨mark, isMark, Nat.lt_of_le_of_lt below passed, Nat.le_trans reached above⟩

-- A rise meets a mark exactly when one of its two parts does.
theorem crosses_split (marks : Set Nat) (before middle after : Nat) (first : before ≤ middle) (second : middle ≤ after) :
    Crosses marks before after ↔ Crosses marks before middle ∨ Crosses marks middle after := by
  constructor
  · intro crossed
    obtain ⟨mark, isMark, passed, reached⟩ := crossed
    by_cases early : mark ≤ middle
    · exact .inl ⟨mark, isMark, passed, early⟩
    · exact .inr ⟨mark, isMark, Nat.lt_of_not_le early, reached⟩
  · intro either
    cases either with
    | inl crossed => exact crosses_mono (Nat.le_refl before) second crossed
    | inr crossed => exact crosses_mono first (Nat.le_refl after) crossed

-- Only the first mark ahead of the counter matters.
theorem crosses_first {marks : Set Nat} {before : Nat} (after : Nat) {first : Nat}
    (least : IsLeast {mark | mark ∈ marks ∧ before < mark} first) : Crosses marks before after ↔ first ≤ after := by
  obtain ⟨⟨isMark, ahead⟩, lowest⟩ := least
  constructor
  · intro crossed
    obtain ⟨mark, other, passed, reached⟩ := crossed
    exact Nat.le_trans (lowest ⟨other, passed⟩) reached
  · intro reached
    exact ⟨first, isMark, ahead, reached⟩

-- Marks that double from the quantum up to the cap, and then follow each other
-- at the cap.
def geometric (quantum cap : Nat) : Set Nat :=
  {mark | (∃ doublings, mark = min (quantum * 2 ^ doublings) cap) ∨ ∃ epoch, 0 < epoch ∧ mark = epoch * cap}

section Geometric

variable (quantum : Nat) {cap : Nat}

theorem double_mono (first second : Nat) (le : first ≤ second) : quantum * 2 ^ first ≤ quantum * 2 ^ second :=
  Nat.mul_le_mul_left quantum (Nat.pow_le_pow_right (by decide) le)

-- The first doubling that is ahead is the first mark ahead.
theorem doubled_least (before doublings : Nat) (below : before < cap) (ahead : before < quantum * 2 ^ doublings)
    (passed : ∀ earlier < doublings, quantum * 2 ^ earlier ≤ before) :
    IsLeast {mark | mark ∈ geometric quantum cap ∧ before < mark} (min (quantum * 2 ^ doublings) cap) := by
  refine ⟨⟨.inl ⟨doublings, rfl⟩, lt_min ahead below⟩, ?_⟩
  intro mark member
  obtain ⟨isMark, beyond⟩ := member
  cases isMark with
  | inl doubled =>
      obtain ⟨other, same⟩ := doubled
      rw [same] at beyond ⊢
      by_cases early : other < doublings
      · have behind := passed other early
        have short := Nat.min_le_left (quantum * 2 ^ other) cap
        omega
      · exact min_le_min_right cap (double_mono quantum doublings other (Nat.le_of_not_lt early))
  | inr epochs =>
      obtain ⟨epoch, positive, same⟩ := epochs
      rw [same]
      exact Nat.le_trans (Nat.min_le_right _ _) (Nat.le_mul_of_pos_left cap positive)

-- From the cap on it is the next multiple.
theorem epoch_least (before : Nat) (positive : 0 < cap) (above : cap ≤ before) :
    IsLeast {mark | mark ∈ geometric quantum cap ∧ before < mark} ((before / cap + 1) * cap) := by
  have ahead : before < (before / cap + 1) * cap := by
    rw [Nat.mul_comm]
    exact Nat.lt_mul_div_succ before positive
  refine ⟨⟨.inr ⟨before / cap + 1, Nat.succ_pos _, rfl⟩, ahead⟩, ?_⟩
  intro mark member
  obtain ⟨isMark, beyond⟩ := member
  cases isMark with
  | inl doubled =>
      obtain ⟨other, same⟩ := doubled
      rw [same] at beyond
      have short := Nat.min_le_right (quantum * 2 ^ other) cap
      omega
  | inr epochs =>
      obtain ⟨epoch, _, same⟩ := epochs
      rw [same] at beyond ⊢
      exact Nat.mul_le_mul_right cap ((Nat.div_lt_iff_lt_mul positive).mpr beyond)

-- No stretch as long as the cap is free of marks.
theorem geometric_gap (before after : Nat) (positive : 0 < cap) (quiet : ¬ Crosses (geometric quantum cap) before after) :
    after < before + cap := by
  by_contra far
  apply quiet
  have aligned := Nat.div_add_mod before cap
  have small := Nat.mod_lt before positive
  refine ⟨(before / cap + 1) * cap, .inr ⟨before / cap + 1, Nat.succ_pos _, rfl⟩, ?_, ?_⟩ <;>
    rw [Nat.add_mul, Nat.one_mul, Nat.mul_comm (before / cap) cap] <;> omega

end Geometric

end Thresholds
