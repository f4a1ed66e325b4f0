import Shiba.Sink.Pages
import Shiba.Execution.Admission
import Shiba.Execution.Bigint

set_option autoImplicit false

namespace Shiba.Sink

open Copies Shiba.Stream Shiba.Execution Shiba.Linear

-- plan_weight_page with its conversions and its checked product.
def planWeightPageChecked (effectWeight : Int) (savedRemainingWeight : Option Int) (rowBytes : Nat) (budget : WorkBudget) :
    Except Fault WeightPage := do
  let page ← planWeightPage effectWeight savedRemainingWeight rowBytes budget
  refuse (decide (bigintMax < page.usage.outputRows)) "Sink page count exceeds signed bigint"
  refuse (page.remainingWeight.any fun rest => !isBigint rest) "Sink remaining weight exceeds bigint"
  refuse (decide (u64Max < page.usage.outputBytes)) "Sink page byte count overflowed u64"
  return page

-- The quantum's record with the checked additions of its usage.
def WorkQuantum.recordChecked (quantum : WorkQuantum) (usage : WorkUsage) : Except Fault WorkQuantum := do
  let quantum ← quantum.record usage
  refuse (decide (u64Max < quantum.used.inputRows)) "quantum input-row usage overflow"
  refuse (decide (u64Max < quantum.used.inputBytes)) "quantum input-byte usage overflow"
  refuse (decide (u64Max < quantum.used.outputRows)) "quantum output-row usage overflow"
  refuse (decide (u64Max < quantum.used.outputBytes)) "quantum output-byte usage overflow"
  return quantum

-- The loop of consume_data on machine integers.
def planHeadsChecked (position : InputPosition) (rows : Nat) : List EffectHead → PagePlan → Except Fault PagePlan
  | [], plan => .ok plan
  | head :: heads, plan =>
      match plan.next, plan.quantum.remaining with
      | none, _ => .error (.failed "Sink page continued after its chunk ended")
      | some current, remaining => do
          refuse (decide (current.position.rowOrdinal ≠ head.rowOrdinal)) "Sink page continuation skipped an effect row"
          match remaining with
          | none => .error (.failed "Sink quantum exhausted before its first effect")
          | some remaining =>
              if plan.quantum.used ≠ {} ∧
                  (remaining.maxInputBytes < head.rowBytes ∨ remaining.maxOutputBytes < head.rowBytes) then
                return plan
              else do
                let page ← planWeightPageChecked head.weight current.remainingWeight head.rowBytes remaining
                let quantum ← plan.quantum.recordChecked page.usage
                let actions := plan.actions ++ [⟨head.rowOrdinal, page.appliedWeight⟩]
                match page.remainingWeight with
                | some remainingWeight => do
                    let here ← InputPosition.new position.streamId position.chunkSeq head.rowOrdinal
                    return ⟨actions, quantum, some ⟨here, some remainingWeight, true⟩⟩
                | none => do
                    refuse (decide (head.rowOrdinal = bigintMax)) "Sink row ordinal exhausted bigint"
                    if head.rowOrdinal + 1 = rows then return ⟨actions, quantum, none⟩
                    else do
                      let there ← InputPosition.new position.streamId position.chunkSeq (head.rowOrdinal + 1)
                      let plan : PagePlan := ⟨actions, quantum, some ⟨there, none, true⟩⟩
                      if quantum.remaining.isNone then return plan else planHeadsChecked position rows heads plan

-- The bounds are the settings' and fit every type that a page casts them to.
structure Sized (budget : WorkBudget) : Prop where
  inputRows : budget.maxInputRows ≤ bigintMax
  inputBytes : budget.maxInputBytes ≤ u64Max
  outputRows : budget.maxOutputRows ≤ u64Max
  outputBytes : budget.maxOutputBytes ≤ u64Max

-- An effect of a data chunk: its weight, and the bytes of its row.
structure Effect where
  weight : Int
  rowBytes : Nat
deriving DecidableEq, Repr

structure WeightedChunk where
  streamId : Nat
  chunkSeq : Nat
  effects : List Effect
  identified : 0 < streamId
  numbered : 0 < chunkSeq
  filled : effects ≠ []
  counted : effects.length ≤ bigintMax
  present : ∀ effect ∈ effects, effect.weight ≠ 0
  bigint : ∀ effect ∈ effects, isBigint effect.weight = true
  measured : ∀ effect ∈ effects, 0 < effect.rowBytes
  sized : ∀ effect ∈ effects, effect.rowBytes ≤ bigintMax

def headsOf (ordinal : Nat) (effects : List Effect) : List EffectHead :=
  (effects.zipIdx ordinal).map fun item => ⟨item.2, item.1.weight, item.1.rowBytes⟩

def numberedWeights (ordinal : Nat) (effects : List Effect) : List (Nat × Int) :=
  (effects.zipIdx ordinal).map fun item => (item.2, item.1.weight)

-- The weights that are not applied yet, by row ordinal.
def WeightedChunk.pending (chunk : WeightedChunk) : Option SinkContinuation → List (Nat × Int)
  | none => []
  | some next =>
      match chunk.effects.drop next.position.rowOrdinal with
      | [] => []
      | effect :: rest => (next.position.rowOrdinal, next.remainingWeight.getD effect.weight) ::
          numberedWeights (next.position.rowOrdinal + 1) rest

def slices (actions : List SinkAction) : List (Nat × Int) := actions.map fun action => (action.rowOrdinal, action.appliedWeight)

-- A continuation inside the chunk.
structure CursorAt (chunk : WeightedChunk) (continuation : SinkContinuation) : Prop where
  position : continuation.position = ⟨chunk.streamId, chunk.chunkSeq, continuation.position.rowOrdinal⟩
  inside : continuation.position.rowOrdinal < chunk.effects.length
  suffix : ∀ effect, chunk.effects[continuation.position.rowOrdinal]? = some effect →
    Suffix effect.weight continuation.remainingWeight

theorem heads_of_cons (ordinal : Nat) (effect : Effect) (rest : List Effect) :
    headsOf ordinal (effect :: rest) = ⟨ordinal, effect.weight, effect.rowBytes⟩ :: headsOf (ordinal + 1) rest := by
  rw [headsOf, List.zipIdx_cons, List.map_cons]
  rfl

theorem numbered_weights_cons (ordinal : Nat) (effect : Effect) (rest : List Effect) :
    numberedWeights ordinal (effect :: rest) = (ordinal, effect.weight) :: numberedWeights (ordinal + 1) rest := by
  rw [numberedWeights, List.zipIdx_cons, List.map_cons]
  rfl

-- Planning one effect overflows nothing: a part keeps the sign and the range of
-- its weight, and only a single copy may exceed the byte bounds.
theorem weight_page_checked {effect : Effect} {saved : Option Int} {budget : WorkBudget} (nonzero : effect.weight ≠ 0)
    (bigint : isBigint effect.weight = true) (measured : 0 < effect.rowBytes) (sized : effect.rowBytes ≤ bigintMax)
    (suffix : Suffix effect.weight saved) (bytes : budget.maxOutputBytes ≤ u64Max) :
    ∃ page, planWeightPage effect.weight saved effect.rowBytes budget = .ok page ∧
      planWeightPageChecked effect.weight saved effect.rowBytes budget = .ok page ∧
      WeightPageFits effect.weight saved effect.rowBytes budget page ∧ page.usage.outputBytes ≤ u64Max := by
  obtain ⟨page, planned, fits, _⟩ := weight_page_ok effect.weight saved effect.rowBytes budget nonzero measured suffix
  have bounded : page.usage.outputRows ≤ bigintMax := by
    unfold planWeightPage at planned
    have planned := past_check (past_check (past_check planned))
    cases planned
    exact Nat.min_le_right _ _
  have output : page.usage.outputBytes ≤ u64Max := by
    rw [fits.usage]
    change effect.rowBytes * page.appliedWeight.natAbs ≤ u64Max
    by_cases small : effect.rowBytes ≤ budget.maxOutputBytes
    · exact Nat.le_trans (fits.bytes small) bytes
    · rw [fits.oversized (Nat.lt_of_not_le small), Nat.mul_one]
      exact Nat.le_trans sized (by decide)
  have ranged : (page.remainingWeight.any fun rest => !isBigint rest) = false := by
    cases isRest : page.remainingWeight with
    | none => rfl
    | some rest =>
        obtain ⟨_, _, part⟩ := fits.remaining rest isRest
        obtain ⟨some, sameSign, within⟩ := part rest rfl
        rw [is_bigint_iff] at bigint
        rw [Option.any_some, Bool.not_eq_false', is_bigint_iff]
        rcases Int.lt_or_gt_of_ne nonzero with negative | positive
        · rw [Int.sign_eq_neg_one_of_neg negative] at sameSign
          have below := Int.sign_eq_neg_one_iff_neg.mp sameSign
          omega
        · rw [Int.sign_eq_one_of_pos positive] at sameSign
          have above := Int.sign_eq_one_iff_pos.mp sameSign
          omega
  refine ⟨page, planned, ?_, fits, output⟩
  rw [planWeightPageChecked, planned, ok_bind, refuse_ok.mpr (decide_eq_false (Nat.not_lt.mpr bounded)), ok_bind,
    refuse_ok.mpr ranged, ok_bind, refuse_ok.mpr (decide_eq_false (Nat.not_lt.mpr output)), ok_bind]
  rfl

theorem record_checked {quantum : WorkQuantum} {left : WorkBudget} (hasLeft : quantum.remaining = some left)
    (budget : Sized quantum.budget) {effect : Effect} (sized : effect.rowBytes ≤ bigintMax) {saved : Option Int}
    (small : quantum.used = {} ∨ (effect.rowBytes ≤ left.maxInputBytes ∧ effect.rowBytes ≤ left.maxOutputBytes))
    {page : WeightPage} (fits : WeightPageFits effect.weight saved effect.rowBytes left page)
    (output : page.usage.outputBytes ≤ u64Max) : quantum.recordChecked page.usage = .ok (recorded quantum page.usage) := by
  obtain ⟨_, inputRows, inputBytes, outputRows, outputBytes⟩ := remaining_cases quantum left hasLeft
  have rowRoom := left.inputRowsPositive
  have pageRows := fits.rows
  have wide : bigintMax ≤ u64Max := by decide
  have rowsFit := budget.inputRows
  have outFit := budget.outputRows
  have inBytesFit := budget.inputBytes
  have outBytesFit := budget.outputBytes
  rw [WorkQuantum.recordChecked, record_ok quantum left hasLeft, ok_bind, refuse_bind_ok, refuse_bind_ok, refuse_bind_ok, refuse_bind_ok]
  refine ⟨decide_eq_false ?_, decide_eq_false ?_, decide_eq_false ?_, decide_eq_false ?_, rfl⟩
  · rw [recorded, fits.usage]
    change ¬ u64Max < quantum.used.inputRows + 1
    omega
  · rw [recorded, fits.usage]
    change ¬ u64Max < quantum.used.inputBytes + effect.rowBytes
    rcases small with unused | ⟨room, _⟩
    · rw [unused]
      change ¬ u64Max < 0 + effect.rowBytes
      omega
    · omega
  · rw [recorded, fits.usage]
    change ¬ u64Max < quantum.used.outputRows + page.appliedWeight.natAbs
    omega
  · rcases small with unused | ⟨_, room⟩
    · rw [recorded, unused]
      change ¬ u64Max < 0 + page.usage.outputBytes
      omega
    · rw [recorded, fits.usage]
      change ¬ u64Max < quantum.used.outputBytes + effect.rowBytes * page.appliedWeight.natAbs
      have part := fits.bytes room
      omega

end Shiba.Sink
