import Shiba.Join.Candidates

set_option autoImplicit false

namespace Shiba.Join

open Shiba.Execution

-- Budgets as the runtime bounds them: the limits it passes on are bigint values.
structure Bounded (budget : WorkBudget) : Prop where
  inputBytes : budget.maxInputBytes ≤ bigintMax
  outputRows : budget.maxOutputRows ≤ bigintMax
  outputBytes : budget.maxOutputBytes ≤ bigintMax

-- An output prefix inside its budget; only a single row may pass the byte limit.
structure Within (budget : WorkBudget) (rows bytes : Nat) : Prop where
  rowLimit : rows ≤ budget.maxOutputRows
  byteLimit : bytes ≤ budget.maxOutputBytes ∨ rows = 1
  representable : bytes ≤ bigintMax
  empty : rows = 0 → bytes = 0

def OutputAction.Sound (action : OutputAction) : Prop := action.validate = .ok () ∧ action.rowBytes ≤ bigintMax

theorem action_fits_cases {budget : WorkBudget} (bounded : Bounded budget) {rows bytes : Nat} {action : OutputAction}
    (sound : action.Sound) (within : Within budget rows bytes) :
    (actionFits rows bytes action budget = .ok true ∧ Within budget (rows + 1) (bytes + action.rowBytes)) ∨
      actionFits rows bytes action budget = .ok false := by
  obtain ⟨valid, measured⟩ := sound
  have limit := bounded.outputRows
  have wide : bigintMax + bigintMax + 1 ≤ u64Max := by decide
  have rowLimit := within.rowLimit
  have representable := within.representable
  have nextRows := checked_u64_ok rows 1 "Join output row count overflow" (by omega)
  have nextBytes := checked_u64_ok bytes action.rowBytes "Join output byte count overflow" (by omega)
  have unfolded : actionFits rows bytes action budget =
      if budget.maxOutputRows < rows + 1 then .ok false
      else .ok (decide (rows = 0) || decide (bytes + action.rowBytes ≤ budget.maxOutputBytes)) := by
    rw [actionFits, valid, ok_bind, nextRows, ok_bind, nextBytes, ok_bind]
    rfl
  by_cases full : budget.maxOutputRows < rows + 1
  · exact Or.inr (by rw [unfolded, if_pos full])
  by_cases first : rows = 0
  · apply Or.inl
    have empty := within.empty first
    constructor
    · rw [unfolded, if_neg full, decide_eq_true first, Bool.true_or]
    · exact ⟨by omega, Or.inr (by omega), by omega, by omega⟩
  by_cases small : bytes + action.rowBytes ≤ budget.maxOutputBytes
  · apply Or.inl
    have byteBound := bounded.outputBytes
    constructor
    · rw [unfolded, if_neg full, decide_eq_true small, Bool.or_true]
    · exact ⟨by omega, Or.inl small, by omega, by omega⟩
  · apply Or.inr
    rw [unfolded, if_neg full, decide_eq_false first, decide_eq_false small]
    rfl

-- By induction on the actions: a prefix of them is selected, and it stays within the budget.
theorem select_ok (budget : WorkBudget) (bounded : Bounded budget) (actions : List OutputAction) (rows bytes : Nat)
    (sound : ∀ action ∈ actions, action.Sound) (within : Within budget rows bytes) :
    ∃ count rows' bytes', selectActions budget actions rows bytes = .ok (actions.take count, rows', bytes') ∧
      count ≤ actions.length ∧ Within budget rows' bytes' := by
  induction actions generalizing rows bytes with
  | nil => exact ⟨0, rows, bytes, rfl, Nat.le_refl 0, within⟩
  | cons action rest ih =>
      have here := sound action List.mem_cons_self
      rcases action_fits_cases bounded here within with ⟨fits, next⟩ | full
      · obtain ⟨count, rows', bytes', selected, inside, last⟩ :=
          ih (rows + 1) (bytes + action.rowBytes) (fun other member => sound other (List.mem_cons_of_mem _ member)) next
        have small : bigintMax ≤ u64Max := by decide
        have representable := next.representable
        have rowLimit := next.rowLimit
        have limit := bounded.outputRows
        refine ⟨count + 1, rows', bytes', ?_, Nat.succ_le_succ inside, last⟩
        rw [selectActions, fits, ok_bind, if_pos rfl, checked_u64_ok rows 1 _ (by omega), ok_bind,
          checked_u64_ok bytes action.rowBytes _ (by omega), ok_bind, selected, ok_bind]
        rfl
      · refine ⟨0, rows, bytes, ?_, Nat.zero_le _, within⟩
        rw [selectActions, full, ok_bind]
        rfl

section

variable {Row : Type} (spec : JoinSpec Row) (side : InputSide) (row : Row) (weight : Int)

section

variable (entry : Entry Row)

theorem pair_sound (present : weight ≠ 0) (meetable : Meetable spec side row weight entry) :
    (pairAction spec side row weight entry).Sound := by
  have sized := pair_size_measured spec side row entry.row
  have product : weight * entry.multiplicity ≠ 0 := by
    have positive := meetable.present
    exact Int.mul_ne_zero present (by omega)
  have bytes : ¬ pairSize spec side row entry.row = 0 := by omega
  constructor
  · rw [OutputAction.validate, pairAction, refuse_false (decide_eq_false product), ok_bind,
      refuse_false (decide_eq_false bytes), ok_bind]
    exact stable_id_ok _ meetable.identified
  · exact sized.2

theorem transition_sound (meetable : Meetable spec side row weight entry) :
    (transitionAction spec side row weight entry).Sound := by
  have sized := spec.singleMeasured side.opposite entry.row
  have moved : transitionWeight spec side row weight entry ≠ 0 := by
    have positive := meetable.present
    unfold transitionWeight
    split <;> omega
  have bytes : ¬ spec.singleBytes side.opposite entry.row = 0 := by omega
  constructor
  · rw [OutputAction.validate, transitionAction, refuse_false (decide_eq_false moved), ok_bind,
      refuse_false (decide_eq_false bytes), ok_bind]
    exact stable_id_ok _ meetable.identified
  · exact sized.2

theorem candidate_sound (present : weight ≠ 0) (meetable : Meetable spec side row weight entry) (action : OutputAction)
    (member : action ∈ candidateActions spec side row weight entry) : action.Sound := by
  rcases List.mem_append.mp member with pair | transition
  · unfold pairActions at pair
    split at pair
    · rw [List.mem_singleton.mp pair]
      exact pair_sound spec side row weight entry present meetable
    · cases pair
  · unfold transitionActions at transition
    split at transition
    · rw [List.mem_singleton.mp transition]
      exact transition_sound spec side row weight entry meetable
    · cases transition

theorem candidate_length : (candidateActions spec side row weight entry).length ≤ 2 := by
  unfold candidateActions pairActions transitionActions
  split <;> split <;> simp

theorem candidate_both (both : (candidateActions spec side row weight entry).length = 2) :
    Matches spec side row entry ∧ Flips spec side row weight entry := by
  unfold candidateActions pairActions transitionActions at both
  split at both
  · rename_i hit
    split at both
    · rename_i flips
      exact ⟨hit, flips⟩
    · cases both
  · split at both <;> cases both

theorem candidate_pair_first (hit : Matches spec side row entry) (flips : Flips spec side row weight entry) :
    candidateActions spec side row weight entry =
      [pairAction spec side row weight entry, transitionAction spec side row weight entry] := by
  rw [candidateActions, pairActions, transitionActions, if_pos hit, if_pos flips]
  rfl

end

def MatchCounts.add (counts : MatchCounts) (truth : MatchTruth) (amount : Nat) : MatchCounts :=
  match truth with
  | .true => { counts with matched := counts.matched + amount }
  | .unknown => { counts with unknown := counts.unknown + amount }
  | .false => counts

def InputProgress.past (progress : InputProgress) (entry : Entry Row) : InputProgress :=
  { progress with
    candidateAfter := some entry.rowId
    oppositeCounts := progress.oppositeCounts.add (entry.truth spec side row) entry.multiplicity }

theorem complete_candidate_ok (progress : InputProgress) (entry : Entry Row)
    (fits : (progress.oppositeCounts.add (entry.truth spec side row) entry.multiplicity).Fit) :
    progress.completeCandidate (expectationOf spec side row weight entry) = .ok (progress.past spec side row entry) := by
  unfold InputProgress.completeCandidate InputProgress.past
  unfold MatchCounts.add at fits ⊢
  cases truth : entry.truth spec side row with
  | false => simp only [expectationOf, truth]; rfl
  | true =>
      rw [truth] at fits
      simp only [expectationOf, truth, count_sum_ok _ _ _ fits.1, ok_bind]
      rfl
  | unknown =>
      rw [truth] at fits
      simp only [expectationOf, truth, count_sum_ok _ _ _ fits.2, ok_bind]
      rfl

end

end Shiba.Join
