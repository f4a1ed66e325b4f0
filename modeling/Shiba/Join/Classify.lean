import Shiba.Join.Candidates

set_option autoImplicit false

namespace Shiba.Join

open Shiba.Execution

section

variable (mode : JoinMode) (side : InputSide) (weight : Int) (candidate : CandidateProbe)

-- The projections the probe measured, in the order in which actions use them.
def CandidateProbe.sizes (candidate : CandidateProbe) : List Nat :=
  candidate.outputBytes.pair.toList ++ candidate.outputBytes.candidateOnly.toList

-- Everything a classification that succeeds can have found.
structure Reads (classified : Classified) : Prop where
  valid : candidate.validate = .ok ()
  counted : applyMatchDelta candidate.oldCounts candidate.truth weight = .ok classified.expected.newCounts
  expected : classified.expected = { rowId := candidate.rowId, multiplicity := candidate.multiplicity, truth := candidate.truth
                                     oldCounts := candidate.oldCounts, newCounts := classified.expected.newCounts }
  checked : classified.expected.validate = .ok ()
  actions : ∀ action ∈ classified.actions, action.validate = .ok () ∧ action.rowBytes ∈ candidate.sizes
  few : classified.actions.length ≤ 2
  both : classified.actions.length = 2 → followsPair classified.actions = true ∧ candidate.truth = .true

variable {mode weight candidate}

theorem candidate_parts (valid : candidate.validate = .ok ()) :
    0 < candidate.rowId ∧ 0 < candidate.multiplicity ∧ candidate.multiplicity ≤ bigintMax ∧ candidate.rowBytes ≠ 0 ∧
      ∀ size ∈ candidate.sizes, size ≠ 0 := by
  unfold CandidateProbe.validate validateStableId validatePositiveCount validateCount at valid
  obtain ⟨identified, valid⟩ := refuse_bind_ok.mp valid
  obtain ⟨_, counted, valid⟩ := bind_ok_iff.mp valid
  obtain ⟨positive, known⟩ := refuse_bind_ok.mp counted
  obtain ⟨_, _, valid⟩ := bind_ok_iff.mp valid
  obtain ⟨measured, projected⟩ := refuse_bind_ok.mp valid
  have sizes := refuse_ok.mp projected
  rw [Bool.or_eq_false_iff, decide_eq_false_iff_not, decide_eq_false_iff_not] at sizes
  have inRange := of_decide_eq_false (refuse_ok.mp known)
  have present := of_decide_eq_false positive
  have positiveId := of_decide_eq_false identified
  refine ⟨by omega, by omega, by omega, of_decide_eq_false measured, ?_⟩
  intro size member zero
  subst zero
  rcases List.mem_append.mp member with pair | single
  · exact sizes.1 (Option.mem_toList.mp pair)
  · exact sizes.2 (Option.mem_toList.mp single)

theorem weight_product_cases (multiplicity : Nat) (product : Int)
    (ok : checkedWeightProduct weight multiplicity = .ok product) : product = weight * multiplicity ∧ product ≠ 0 := by
  unfold checkedWeightProduct at ok
  obtain ⟨_, _, ok⟩ := bind_ok_iff.mp ok
  obtain ⟨inside, ok⟩ := refuse_bind_ok.mp ok
  obtain rfl := Except.ok.inj ok
  simp only [Bool.or_eq_false_iff, decide_eq_false_iff_not] at inside
  exact ⟨rfl, inside.1.1⟩

theorem count_sum_cases (left right sum : Nat) (name : String) (ok : checkedCountSum left right name = .ok sum) :
    sum = left + right ∧ sum ≤ bigintMax := by
  unfold checkedCountSum checkedU64 validateCount at ok
  obtain ⟨result, added, ok⟩ := bind_ok_iff.mp ok
  obtain ⟨_, added⟩ := refuse_bind_ok.mp added
  obtain rfl := Except.ok.inj added
  obtain ⟨inside, ok⟩ := refuse_bind_ok.mp ok
  obtain rfl := Except.ok.inj ok
  exact ⟨rfl, by simpa using inside⟩

-- At most one action, which names the candidate, its weight and its measured size.
theorem classify_pair_cases (actions : List OutputAction) (ok : classifyPair mode side weight candidate = .ok actions) :
    actions = [] ∨ ∃ product rowBytes, candidate.truth = .true ∧ product ≠ 0 ∧ candidate.outputBytes.pair = some rowBytes ∧
      actions = [{ kind := .pair, currentSide := side, candidateRowId := some candidate.rowId, weight := product
                   rowBytes := rowBytes }] := by
  unfold classifyPair at ok
  by_cases hit : candidate.truth = .true ∧ emitsPairs mode = true
  · rw [if_pos hit] at ok
    obtain ⟨product, multiplied, ok⟩ := bind_ok_iff.mp ok
    cases measured : candidate.outputBytes.pair with
    | none =>
        rw [measured] at ok
        cases ok
    | some rowBytes =>
        rw [measured] at ok
        exact .inr ⟨product, rowBytes, hit.1, (weight_product_cases _ _ multiplied).2, rfl, (Except.ok.inj ok).symm⟩
  · rw [if_neg hit] at ok
    exact .inl (Except.ok.inj ok).symm

theorem classify_eligibility_cases (newCounts : MatchCounts) (actions : List OutputAction) (present : 0 < candidate.multiplicity)
    (ok : classifyEligibility mode side candidate newCounts = .ok actions) :
    actions = [] ∨ ∃ moved rowBytes, moved ≠ 0 ∧ candidate.outputBytes.candidateOnly = some rowBytes ∧
      actions = [{ kind := .candidateEligibility, currentSide := side, candidateRowId := some candidate.rowId, weight := moved
                   rowBytes := rowBytes }] := by
  unfold classifyEligibility at ok
  by_cases flips : candidateSideIsOutput mode side.opposite = true ∧
      candidateEligible mode candidate.oldCounts ≠ candidateEligible mode newCounts
  · rw [if_pos flips] at ok
    obtain ⟨magnitude, sized, ok⟩ := bind_ok_iff.mp ok
    obtain ⟨_, _, sized⟩ := bind_ok_iff.mp sized
    obtain rfl := Except.ok.inj sized
    cases measured : candidate.outputBytes.candidateOnly with
    | none =>
        rw [measured] at ok
        cases ok
    | some rowBytes =>
        rw [measured] at ok
        refine .inr ⟨_, rowBytes, ?_, rfl, (Except.ok.inj ok).symm⟩
        split <;> omega
  · rw [if_neg flips] at ok
    exact .inl (Except.ok.inj ok).symm

theorem action_valid {action : OutputAction} {rowId : Int} (moved : action.weight ≠ 0) (measured : action.rowBytes ≠ 0)
    (named : action.candidateRowId = some rowId) (positive : 0 < rowId)
    (kind : action.kind = .pair ∨ action.kind = .candidateEligibility) : action.validate = .ok () := by
  rw [OutputAction.validate, refuse_false (decide_eq_false moved), ok_bind, refuse_false (decide_eq_false measured), ok_bind,
    named]
  rcases kind with pair | single
  · rw [pair]
    exact stable_id_ok _ positive
  · rw [single]
    exact stable_id_ok _ positive

theorem classify_reads {classified : Classified} (ok : classifyCandidate mode side weight candidate = .ok classified) :
    Reads weight candidate classified := by
  unfold classifyCandidate at ok
  obtain ⟨_, valid, ok⟩ := bind_ok_iff.mp ok
  obtain ⟨newCounts, counted, ok⟩ := bind_ok_iff.mp ok
  obtain ⟨_, checked, ok⟩ := bind_ok_iff.mp ok
  obtain ⟨pairs, paired, ok⟩ := bind_ok_iff.mp ok
  obtain ⟨flips, flipped, ok⟩ := bind_ok_iff.mp ok
  obtain rfl := Except.ok.inj ok
  obtain ⟨positive, present, _, _, sized⟩ := candidate_parts valid
  have pairCases := classify_pair_cases side pairs paired
  have flipCases := classify_eligibility_cases side newCounts flips present flipped
  refine ⟨valid, counted, rfl, checked, ?_, ?_, ?_⟩
  · intro action member
    rcases List.mem_append.mp member with isPair | isFlip
    · rcases pairCases with rfl | ⟨product, rowBytes, _, moved, measured, rfl⟩
      · cases isPair
      · obtain rfl := List.mem_singleton.mp isPair
        have listed : rowBytes ∈ candidate.sizes := List.mem_append_left _ (by rw [measured]; exact List.mem_singleton.mpr rfl)
        exact ⟨action_valid moved (sized _ listed) rfl positive (.inl rfl), listed⟩
    · rcases flipCases with rfl | ⟨amount, rowBytes, moved, measured, rfl⟩
      · cases isFlip
      · obtain rfl := List.mem_singleton.mp isFlip
        have listed : rowBytes ∈ candidate.sizes := List.mem_append_right _ (by rw [measured]; exact List.mem_singleton.mpr rfl)
        exact ⟨action_valid moved (sized _ listed) rfl positive (.inr rfl), listed⟩
  · rcases pairCases with rfl | ⟨_, _, _, _, _, rfl⟩ <;> rcases flipCases with rfl | ⟨_, _, _, _, rfl⟩ <;> simp
  · intro two
    rcases pairCases with rfl | ⟨_, _, hit, _, _, rfl⟩
    · rcases flipCases with rfl | ⟨_, _, _, _, rfl⟩ <;> cases two
    · rcases flipCases with rfl | ⟨_, _, _, _, rfl⟩
      · cases two
      · exact ⟨rfl, hit⟩

end

end Shiba.Join
