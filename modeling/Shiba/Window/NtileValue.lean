import Shiba.Window.Ntile

set_option autoImplicit false

namespace Shiba.Window

open Shiba.Execution

section Counter

variable (total buckets : Nat)

-- Where a row stands: in one of the first buckets, which have a row more, or in
-- one of the others. The counter says the same.
def Closed (active : Nat) (context : NtileContext) : Prop :=
  (∃ bucket place, active = (total / buckets + 1) * bucket + place + 1 ∧ place ≤ total / buckets ∧ bucket < total % buckets ∧
    context = ⟨bucket + 1, place + 1, total / buckets + 1, if total / buckets = 0 then 0 else total % buckets⟩) ∨
  0 < total / buckets ∧ ∃ bucket place,
    active = (total / buckets + 1) * (total % buckets) + total / buckets * bucket + place + 1 ∧ place < total / buckets ∧
    context = ⟨total % buckets + bucket + 1, place + 1, total / buckets, 0⟩

theorem leading_rows (positive : 0 < buckets) : (total / buckets + 1) * (total % buckets) ≤ total := by
  have below := Nat.mod_lt total positive
  have whole := Nat.div_add_mod total buckets
  calc (total / buckets + 1) * (total % buckets) = total / buckets * (total % buckets) + total % buckets := by ring
    _ ≤ total / buckets * buckets + total % buckets := Nat.add_le_add_right (Nat.mul_le_mul_left _ (Nat.le_of_lt below)) _
    _ = total := by rw [Nat.mul_comm]; exact whole

theorem first_closed (some : 0 < total) : Closed total buckets 1 (NtileContext.first total buckets).advance := by
  unfold NtileContext.first
  by_cases few : total / buckets = 0
  · rw [if_pos few]
    left
    have all := Nat.div_add_mod total buckets
    rw [few, Nat.mul_zero, Nat.zero_add] at all
    refine ⟨0, 0, ?_, ?_, ?_, ?_⟩
    · omega
    · omega
    · omega
    · rw [few]
      rfl
  · have full : 0 < total / buckets := Nat.pos_of_ne_zero few
    rw [if_neg few]
    by_cases even : total % buckets = 0
    · rw [if_pos even]
      right
      refine ⟨full, 0, 0, ?_, full, ?_⟩
      · rw [even, Nat.mul_zero, Nat.mul_zero]
      · rw [NtileContext.advance, if_neg (by simp only []; omega), even]
    · rw [if_neg even]
      left
      refine ⟨0, 0, ?_, Nat.zero_le _, Nat.pos_of_ne_zero even, ?_⟩
      · omega
      · rw [NtileContext.advance, if_neg (by simp only []; omega), if_neg few]

-- One more row moves the counter on, or opens the next bucket.
theorem advance_closed (active : Nat) (context : NtileContext) (closed : Closed total buckets active context)
    (more : active < total) : Closed total buckets (active + 1) context.advance := by
  rcases closed with ⟨bucket, place, here, within, leading, rfl⟩ | ⟨full, bucket, place, here, within, rfl⟩
  · by_cases room : place < total / buckets
    · left
      refine ⟨bucket, place + 1, ?_, room, leading, ?_⟩
      · omega
      · rw [NtileContext.advance, if_neg (by simp only []; omega)]
    · have last : place = total / buckets := by omega
      have next : active + 1 = (total / buckets + 1) * (bucket + 1) + 0 + 1 := by
        rw [here, last]
        ring
      rw [NtileContext.advance, if_pos (by simp only []; omega)]
      by_cases few : total / buckets = 0
      · rw [if_neg (by simp only [few, if_true]; omega)]
        left
        have all := Nat.div_add_mod total buckets
        rw [few, Nat.mul_zero, Nat.zero_add] at all
        refine ⟨bucket + 1, 0, next, Nat.zero_le _, ?_, rfl⟩
        rw [few] at next
        omega
      · by_cases turn : bucket + 1 = total % buckets
        · rw [if_pos (by simp only [if_neg few]; omega)]
          right
          refine ⟨Nat.pos_of_ne_zero few, 0, 0, ?_, Nat.pos_of_ne_zero few, ?_⟩
          · rw [next, turn]
            ring
          · simp only [turn, Nat.add_sub_cancel, Nat.add_zero]
        · rw [if_neg (by simp only [if_neg few]; omega)]
          left
          exact ⟨bucket + 1, 0, next, Nat.zero_le _, by omega, rfl⟩
  · right
    refine ⟨full, ?_⟩
    by_cases room : place + 1 < total / buckets
    · refine ⟨bucket, place + 1, ?_, room, ?_⟩
      · omega
      · rw [NtileContext.advance, if_neg (by simp only []; omega)]
    · refine ⟨bucket + 1, 0, ?_, full, ?_⟩
      · have last : place + 1 = total / buckets := by omega
        rw [here, Nat.mul_succ]
        omega
      · rw [NtileContext.advance, if_pos (by simp only []; omega), if_neg (by simp only []; omega)]
        simp only [Nat.add_assoc]

variable (positive : 0 < buckets) (active : Nat) (context : NtileContext)
  (closed : Closed total buckets active context) (within : active ≤ total)

include positive closed within

theorem closed_bound : context.ntile ≤ buckets := by
  have below := Nat.mod_lt total positive
  rcases closed with ⟨bucket, place, _, _, leading, rfl⟩ | ⟨full, bucket, place, here, _, rfl⟩
  · change bucket + 1 ≤ buckets
    omega
  · change total % buckets + bucket + 1 ≤ buckets
    have whole := Nat.div_add_mod total buckets
    by_contra past
    have many : buckets - total % buckets ≤ bucket := by omega
    have rows := Nat.mul_le_mul_left (total / buckets) many
    have split : total / buckets * (buckets - total % buckets) + total / buckets * (total % buckets) = total / buckets * buckets := by
      rw [← Nat.mul_add, Nat.sub_add_cancel (Nat.le_of_lt below)]
    have lead : (total / buckets + 1) * (total % buckets) = total / buckets * (total % buckets) + total % buckets := by ring
    rw [Nat.mul_comm buckets] at whole
    omega

-- The closed form of the source is the counter.
theorem ntile_value (fits : total ≤ bigintMax) (above : ¬ (total = bigintMax ∧ buckets = 1)) (ordinal firstOrdinal : Int)
    (low : 0 < firstOrdinal) (counted : ordinal - firstOrdinal + 1 = active) (ordinalFits : ordinal ≤ bigintMax) :
    windowNtileValue ordinal total (some buckets) (some firstOrdinal) = .ok (some context.ntile) := by
  have some : 0 < active := by
    rcases closed with ⟨_, _, here, _⟩ | ⟨_, _, _, here, _⟩
    · omega
    · omega
  have below := Nat.mod_lt total positive
  have share := Nat.div_le_self total buckets
  have lead := leading_rows total buckets positive
  have larger : total / buckets + 1 ≤ bigintMax := by
    by_cases single : buckets = 1
    · have room : total ≠ bigintMax := fun full => above ⟨full, single⟩
      omega
    · by_cases nothing : total = 0
      · rw [nothing, Nat.zero_div]
        decide
      · have half := Nat.div_lt_self (Nat.pos_of_ne_zero nothing) (show 1 < buckets by omega)
        omega
  have isQuotient := bigint_div_natural positive fits
  have isRemainder := bigint_mod_natural total buckets positive fits
  have bound := closed_bound total buckets positive active context closed within
  have few : total % buckets ≤ total := Nat.mod_le _ _
  unfold windowNtileValue
  unfold Closed at closed
  generalize total / buckets = quotient at *
  generalize total % buckets = remainder at *
  have isLarger : bigint ((quotient : Int) + 1) = .ok ((quotient + 1 : Nat) : Int) := bigint_natural (quotient + 1) larger
  have isLeading : bigint (((quotient + 1 : Nat) : Int) * (remainder : Int)) = .ok (((quotient + 1) * remainder : Nat) : Int) := by
    rw [← Nat.cast_mul]
    exact bigint_natural _ (Nat.le_trans lead fits)
  have isActive : bigint (ordinal - firstOrdinal + 1) = .ok (active : Int) := by
    rw [counted]
    exact bigint_natural _ (Nat.le_trans within fits)
  have isOffset : bigint (ordinal - firstOrdinal) = .ok (ordinal - firstOrdinal) := bigint_ok _ (by omega) (by omega)
  have above : ¬ (buckets : Int) ≤ 0 := by omega
  simp only [above, if_false]
  rw [isOffset, ok_bind, isActive, ok_bind, isQuotient, ok_bind, isLarger, ok_bind, isRemainder, ok_bind, isLeading, ok_bind]
  rcases closed with ⟨bucket, place, here, inside, leading, rfl⟩ | ⟨full, bucket, place, here, inside, rfl⟩
  · have earlier : active ≤ (quotient + 1) * remainder := by
      have rows := Nat.mul_le_mul_left (quotient + 1) (Nat.succ_le_of_lt leading)
      rw [Nat.mul_succ] at rows
      omega
    have back : (active : Int) - 1 = ((active - 1 : Nat) : Int) := by omega
    have share : (active - 1) / (quotient + 1) = bucket := by
      rw [here, Nat.add_sub_cancel, Nat.add_comm, Nat.add_mul_div_left _ _ (Nat.succ_pos _), Nat.div_eq_of_lt (by omega), Nat.zero_add]
    have value : bigint ((bucket : Int) + 1) = .ok ((bucket + 1 : Nat) : Int) := bigint_natural (bucket + 1) (by omega)
    rw [if_pos (Int.ofNat_le.mpr earlier), back, bigint_natural _ (by omega), ok_bind,
      bigint_div_natural (Nat.succ_pos _) (by omega), ok_bind, share, value, ok_bind]
    rfl
  · change remainder + bucket + 1 ≤ buckets at bound
    have later : ¬ active ≤ (quotient + 1) * remainder := by omega
    have behind : (active : Int) - (((quotient + 1) * remainder : Nat) : Int) = ((active - (quotient + 1) * remainder : Nat) : Int) := by
      omega
    have back : ((active - (quotient + 1) * remainder : Nat) : Int) - 1 = ((active - (quotient + 1) * remainder - 1 : Nat) : Int) := by
      omega
    have share : (active - (quotient + 1) * remainder - 1) / quotient = bucket := by
      have rest : active - (quotient + 1) * remainder - 1 = quotient * bucket + place := by omega
      rw [rest, Nat.add_comm, Nat.add_mul_div_left _ _ full, Nat.div_eq_of_lt inside, Nat.zero_add]
    have many : bucket ≤ total := by
      have rows := Nat.le_mul_of_pos_left bucket full
      omega
    have sum : bigint ((remainder : Int) + (bucket : Int)) = .ok ((remainder + bucket : Nat) : Int) := by
      apply bigint_natural (remainder + bucket)
      have rows := Nat.le_mul_of_pos_left bucket full
      have leads : remainder ≤ (quotient + 1) * remainder := Nat.le_mul_of_pos_left _ (Nat.succ_pos _)
      omega
    have value : bigint (((remainder + bucket : Nat) : Int) + 1) = .ok ((remainder + bucket + 1 : Nat) : Int) := by
      apply bigint_natural (remainder + bucket + 1)
      have rows := Nat.le_mul_of_pos_left bucket full
      have leads : remainder ≤ (quotient + 1) * remainder := Nat.le_mul_of_pos_left _ (Nat.succ_pos _)
      omega
    rw [if_neg (fun earlier => later (Int.ofNat_le.mp earlier)), behind, bigint_natural _ (by omega), ok_bind, back,
      bigint_natural _ (by omega), ok_bind, ok_bind, ok_bind, bigint_div_natural full (by omega), ok_bind, share, sum, ok_bind, value, ok_bind]
    rfl

end Counter

end Shiba.Window
