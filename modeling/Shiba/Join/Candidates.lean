import Shiba.Join.Run

set_option autoImplicit false

namespace Shiba.Join

open Shiba.Execution

theorem refuse_false {bad : Bool} (good : bad = false) (message : String) : refuse bad message = .ok () :=
  refuse_ok.mpr good

section

variable {weight : Int} (left right value : Nat) (message name : String) {rowBytes : Nat} {mode : JoinMode}
  {candidate : CandidateProbe}

theorem stable_id_ok {value : Int} (positive : 0 < value) : validateStableId value name = .ok () :=
  refuse_false (decide_eq_false (by omega)) _

theorem count_ok (fits : value ≤ bigintMax) : validateCount value name = .ok () :=
  refuse_false (decide_eq_false (by omega)) _

theorem positive_count_ok (positive : 0 < value) (fits : value ≤ bigintMax) :
    validatePositiveCount value name = .ok () := by
  rw [validatePositiveCount, refuse_false (decide_eq_false (by omega)), ok_bind, count_ok value name fits]

theorem checked_u64_ok (fits : left + right ≤ u64Max) :
    checkedU64 left right message = .ok (left + right) := by
  rw [checkedU64, refuse_false (decide_eq_false (by omega)), ok_bind]
  rfl

theorem signed_count_ok {base : Nat} {delta : Int} (known : base ≤ bigintMax) (natural : 0 ≤ base + delta)
    (fits : base + delta ≤ bigintMax) : checkedSignedCount base delta name = .ok (base + delta).toNat := by
  have inside : (decide ((base : Int) + delta < 0) || decide ((bigintMax : Int) < base + delta)) = false := by
    rw [Bool.or_eq_false_iff]
    exact ⟨decide_eq_false (by omega), decide_eq_false (by omega)⟩
  rw [checkedSignedCount, count_ok base name known, ok_bind]
  simp only [refuse_false inside, ok_bind]
  rfl

theorem count_sum_ok (fits : left + right ≤ bigintMax) :
    checkedCountSum left right name = .ok (left + right) := by
  have small : bigintMax ≤ u64Max := by decide
  rw [checkedCountSum, checked_u64_ok left right _ (by omega), ok_bind, count_ok _ name fits, ok_bind]
  rfl

theorem weight_product_ok {multiplicity : Nat} (present : weight ≠ 0) (positive : 0 < multiplicity)
    (known : multiplicity ≤ bigintMax) (above : -(bigintMax : Int) - 1 ≤ weight * multiplicity)
    (below : weight * multiplicity ≤ bigintMax) :
    checkedWeightProduct weight multiplicity = .ok (weight * multiplicity) := by
  have product : weight * multiplicity ≠ 0 := Int.mul_ne_zero present (by omega)
  have inside : (decide (weight * multiplicity = 0) || decide (weight * multiplicity < -(bigintMax : Int) - 1) ||
      decide ((bigintMax : Int) < weight * multiplicity)) = false := by
    simp only [Bool.or_eq_false_iff, decide_eq_false_iff_not]
    omega
  rw [checkedWeightProduct, positive_count_ok multiplicity _ positive known, ok_bind]
  simp only [refuse_false inside, ok_bind]
  rfl

def MatchCounts.Fit (counts : MatchCounts) : Prop := counts.matched ≤ bigintMax ∧ counts.unknown ≤ bigintMax

theorem counts_ok (counts : MatchCounts) (fit : counts.Fit) : counts.validate = .ok () := by
  rw [MatchCounts.validate, count_ok _ _ fit.1, ok_bind, count_ok _ _ fit.2]

theorem classify_pair_some (side : InputSide) {product : Int} (hit : candidate.truth = .true ∧ emitsPairs mode = true)
    (multiplied : checkedWeightProduct weight candidate.multiplicity = .ok product)
    (measured : candidate.outputBytes.pair = some rowBytes) :
    classifyPair mode side weight candidate = .ok
      [{ kind := .pair, currentSide := side, candidateRowId := some candidate.rowId, weight := product
         rowBytes := rowBytes }] := by
  rw [classifyPair, if_pos hit, multiplied, ok_bind, measured]
  rfl

theorem classify_pair_none (mode : JoinMode) (side : InputSide) (weight : Int) (candidate : CandidateProbe)
    (miss : ¬ (candidate.truth = .true ∧ emitsPairs mode = true)) : classifyPair mode side weight candidate = .ok [] := by
  rw [classifyPair, if_neg miss]
  rfl

theorem classify_eligibility_some {side : InputSide} {newCounts : MatchCounts}
    (flips : candidateSideIsOutput mode side.opposite = true ∧
      candidateEligible mode candidate.oldCounts ≠ candidateEligible mode newCounts)
    (known : candidate.multiplicity ≤ bigintMax) (measured : candidate.outputBytes.candidateOnly = some rowBytes) :
    classifyEligibility mode side candidate newCounts = .ok
      [{ kind := .candidateEligibility, currentSide := side, candidateRowId := some candidate.rowId
         weight := if candidateEligible mode newCounts then (candidate.multiplicity : Int) else -candidate.multiplicity
         rowBytes := rowBytes }] := by
  rw [classifyEligibility, if_pos flips, countToI64, count_ok _ _ known, ok_bind, measured]
  rfl

end

theorem classify_eligibility_none (mode : JoinMode) (side : InputSide) (candidate : CandidateProbe)
    (newCounts : MatchCounts) (stays : ¬ (candidateSideIsOutput mode side.opposite = true ∧
      candidateEligible mode candidate.oldCounts ≠ candidateEligible mode newCounts)) :
    classifyEligibility mode side candidate newCounts = .ok [] := by
  rw [classifyEligibility, if_neg stays]
  rfl

section

variable {Row : Type} (spec : JoinSpec Row) (side : InputSide) (row : Row) (weight : Int)

-- What the code relies on when an event meets a candidate.
structure Meetable (entry : Entry Row) : Prop where
  identified : 0 < entry.rowId
  present : 0 < entry.multiplicity
  known : entry.multiplicity ≤ bigintMax
  counted : entry.counts.Fit
  matchedNatural : entry.truth spec side row = .true → 0 ≤ entry.counts.matched + weight
  matchedFits : entry.truth spec side row = .true → entry.counts.matched + weight ≤ bigintMax
  unknownNatural : entry.truth spec side row = .unknown → 0 ≤ entry.counts.unknown + weight
  unknownFits : entry.truth spec side row = .unknown → entry.counts.unknown + weight ≤ bigintMax
  pairAbove : entry.truth spec side row = .true → emitsPairs spec.mode = true →
    -(bigintMax : Int) - 1 ≤ weight * entry.multiplicity
  pairBelow : entry.truth spec side row = .true → emitsPairs spec.mode = true → weight * entry.multiplicity ≤ bigintMax

def expectationOf (entry : Entry Row) : CandidateExpectation :=
  { rowId := entry.rowId, multiplicity := entry.multiplicity, truth := entry.truth spec side row
    oldCounts := entry.counts, newCounts := entry.shifted spec side row weight }

def transitionWeight (entry : Entry Row) : Int :=
  if candidateEligible spec.mode (entry.shifted spec side row weight) then entry.multiplicity else -entry.multiplicity

def pairAction (entry : Entry Row) : OutputAction :=
  { kind := .pair, currentSide := side, candidateRowId := some entry.rowId, weight := weight * entry.multiplicity
    rowBytes := pairSize spec side row entry.row }

def transitionAction (entry : Entry Row) : OutputAction :=
  { kind := .candidateEligibility, currentSide := side, candidateRowId := some entry.rowId
    weight := transitionWeight spec side row weight entry, rowBytes := spec.singleBytes side.opposite entry.row }

def pairActions (entry : Entry Row) : List OutputAction :=
  if Matches spec side row entry then [pairAction spec side row weight entry] else []

def transitionActions (entry : Entry Row) : List OutputAction :=
  if Flips spec side row weight entry then [transitionAction spec side row weight entry] else []

def candidateActions (entry : Entry Row) : List OutputAction :=
  pairActions spec side row weight entry ++ transitionActions spec side row weight entry

variable {weight}

variable (entry : Entry Row)

theorem shifted_fit (meetable : Meetable spec side row weight entry) :
    (entry.shifted spec side row weight).Fit := by
  have counted := meetable.counted
  unfold Entry.shifted countsAfter
  cases truth : entry.truth spec side row with
  | false => exact counted
  | true =>
      have fits := meetable.matchedFits truth
      exact ⟨by simp only; omega, counted.2⟩
  | unknown =>
      have fits := meetable.unknownFits truth
      exact ⟨counted.1, by simp only; omega⟩

theorem apply_delta_ok (meetable : Meetable spec side row weight entry) :
    applyMatchDelta entry.counts (entry.truth spec side row) weight = .ok (entry.shifted spec side row weight) := by
  unfold applyMatchDelta Entry.shifted countsAfter
  rw [counts_ok _ meetable.counted, ok_bind]
  cases truth : entry.truth spec side row with
  | false => rfl
  | true =>
      simp only [signed_count_ok _ meetable.counted.1 (meetable.matchedNatural truth) (meetable.matchedFits truth), ok_bind]
      rfl
  | unknown =>
      simp only [signed_count_ok _ meetable.counted.2 (meetable.unknownNatural truth) (meetable.unknownFits truth), ok_bind]
      rfl

theorem pair_size_measured (other : Row) : 0 < pairSize spec side row other ∧ pairSize spec side row other ≤ bigintMax := by
  cases side with
  | left => exact spec.pairMeasured row other
  | right => exact spec.pairMeasured other row

theorem probe_pair : (candidateProbe spec side row weight entry).outputBytes.pair =
    if Matches spec side row entry then some (pairSize spec side row entry.row) else none := rfl

theorem probe_single : (candidateProbe spec side row weight entry).outputBytes.candidateOnly =
    if Flips spec side row weight entry then some (spec.singleBytes side.opposite entry.row) else none := rfl

theorem probe_valid (meetable : Meetable spec side row weight entry) :
    (candidateProbe spec side row weight entry).validate = .ok () := by
  have sized := (spec.rowMeasured side.opposite entry.row).1
  have pairs := (pair_size_measured spec side row entry.row).1
  have singles := (spec.singleMeasured side.opposite entry.row).1
  have projections : (candidateProbe spec side row weight entry).outputBytes.validate = .ok () := by
    apply refuse_false
    rw [Bool.or_eq_false_iff, decide_eq_false_iff_not, decide_eq_false_iff_not]
    rw [probe_pair, probe_single]
    constructor
    · intro zero
      split at zero
      · have size := Option.some.inj zero
        omega
      · cases zero
    · intro zero
      split at zero
      · have size := Option.some.inj zero
        omega
      · cases zero
  have bytes : refuse (decide ((candidateProbe spec side row weight entry).rowBytes = 0))
      "Join candidate has zero measured bytes" = .ok () := by
    apply refuse_false
    apply decide_eq_false
    have size : (candidateProbe spec side row weight entry).rowBytes = spec.rowBytes side.opposite entry.row := rfl
    omega
  have identified : validateStableId (candidateProbe spec side row weight entry).rowId "Join candidate" = .ok () :=
    stable_id_ok _ meetable.identified
  have counted : validatePositiveCount (candidateProbe spec side row weight entry).multiplicity
      "Join candidate multiplicity" = .ok () := positive_count_ok _ _ meetable.present meetable.known
  have kept : (candidateProbe spec side row weight entry).oldCounts.validate = .ok () := counts_ok _ meetable.counted
  rw [CandidateProbe.validate, identified, ok_bind, counted, ok_bind, kept, ok_bind, bytes, ok_bind, projections]

theorem expectation_valid (meetable : Meetable spec side row weight entry) :
    (expectationOf spec side row weight entry).validate = .ok () := by
  simp only [CandidateExpectation.validate, expectationOf, stable_id_ok _ meetable.identified,
    positive_count_ok _ _ meetable.present meetable.known, counts_ok _ meetable.counted,
    counts_ok _ (shifted_fit spec side row entry meetable), ok_bind]

theorem classify_ok (present : weight ≠ 0) (meetable : Meetable spec side row weight entry) :
    classifyCandidate spec.mode side weight (candidateProbe spec side row weight entry) =
      .ok { expected := expectationOf spec side row weight entry, actions := candidateActions spec side row weight entry } := by
  have pair : classifyPair spec.mode side weight (candidateProbe spec side row weight entry) =
      .ok (pairActions spec side row weight entry) := by
    unfold pairActions
    by_cases hit : Matches spec side row entry
    · have product := weight_product_ok present meetable.present meetable.known
        (meetable.pairAbove hit.1 hit.2) (meetable.pairBelow hit.1 hit.2)
      rw [if_pos hit]
      exact classify_pair_some _ hit product (by rw [probe_pair, if_pos hit])
    · rw [if_neg hit]
      exact classify_pair_none _ _ _ _ hit
  have transition : classifyEligibility spec.mode side (candidateProbe spec side row weight entry)
      (entry.shifted spec side row weight) = .ok (transitionActions spec side row weight entry) := by
    unfold transitionActions
    by_cases flips : Flips spec side row weight entry
    · rw [if_pos flips]
      exact classify_eligibility_some flips meetable.known (by rw [probe_single, if_pos flips])
    · rw [if_neg flips]
      exact classify_eligibility_none _ _ _ _ flips
  have delta : applyMatchDelta (candidateProbe spec side row weight entry).oldCounts
      (candidateProbe spec side row weight entry).truth weight = .ok (entry.shifted spec side row weight) :=
    apply_delta_ok spec side row entry meetable
  have valid := expectation_valid spec side row entry meetable
  rw [classifyCandidate, probe_valid spec side row entry meetable, ok_bind, delta, ok_bind]
  change ((expectationOf spec side row weight entry).validate >>= _) = _
  rw [valid, ok_bind, pair, ok_bind, transition, ok_bind]
  rfl

end

end Shiba.Join
