import Shiba.Join.StepLoop
import Shiba.Join.Reached
import Shiba.Join.PageAccepted

set_option autoImplicit false

namespace Shiba.Join

open Shiba.Execution

-- What a page's loop has emitted, counted; only a single row may pass the byte limit.
structure Accounted (budget : WorkBudget) (state : PageProgress) : Prop where
  rows : state.outputRows = state.actions.length
  bytes : state.outputBytes = actionBytes state.actions
  rowLimit : state.outputRows ≤ budget.maxOutputRows
  byteLimit : state.outputBytes ≤ budget.maxOutputBytes ∨ state.outputRows = 1

theorem checked_u64_inv {left right total : Nat} {message : String} (ok : checkedU64 left right message = .ok total) :
    total = left + right := by
  obtain ⟨_, ok⟩ := refuse_bind_ok.mp ok
  exact (Except.ok.inj ok).symm

theorem action_fits_inv {rows bytes : Nat} {action : OutputAction} {budget : WorkBudget}
    (ok : actionFits rows bytes action budget = .ok true) :
    rows + 1 ≤ budget.maxOutputRows ∧ (rows = 0 ∨ bytes + action.rowBytes ≤ budget.maxOutputBytes) := by
  unfold actionFits at ok
  obtain ⟨_, _, ok⟩ := bind_ok_iff.mp ok
  obtain ⟨nextRows, one, ok⟩ := bind_ok_iff.mp ok
  obtain rfl := checked_u64_inv one
  by_cases full : budget.maxOutputRows < rows + 1
  · rw [if_pos full] at ok
    cases ok
  · rw [if_neg full] at ok
    obtain ⟨nextBytes, more, ok⟩ := bind_ok_iff.mp ok
    obtain rfl := checked_u64_inv more
    have fits := Except.ok.inj ok
    rw [Bool.or_eq_true_iff] at fits
    refine ⟨by omega, ?_⟩
    rcases fits with first | small
    · exact .inl (of_decide_eq_true first)
    · exact .inr (of_decide_eq_true small)

-- By induction on the actions, as they are selected.
theorem select_spent (budget : WorkBudget) (actions selected : List OutputAction) (rows bytes rows' bytes' : Nat)
    (rowLimit : rows ≤ budget.maxOutputRows) (byteLimit : bytes ≤ budget.maxOutputBytes ∨ rows = 1)
    (ok : selectActions budget actions rows bytes = .ok (selected, rows', bytes')) :
    rows' = rows + selected.length ∧ bytes' = bytes + actionBytes selected ∧ rows' ≤ budget.maxOutputRows ∧
      (bytes' ≤ budget.maxOutputBytes ∨ rows' = 1) := by
  induction actions generalizing rows bytes selected with
  | nil =>
      cases ok
      exact ⟨rfl, rfl, rowLimit, byteLimit⟩
  | cons action rest ih =>
      rw [selectActions] at ok
      obtain ⟨fits, decided, ok⟩ := bind_ok_iff.mp ok
      cases fits with
      | false =>
          cases ok
          exact ⟨rfl, rfl, rowLimit, byteLimit⟩
      | true =>
          obtain ⟨room, small⟩ := action_fits_inv decided
          obtain ⟨nextRows, one, ok⟩ := bind_ok_iff.mp ok
          obtain ⟨nextBytes, more, ok⟩ := bind_ok_iff.mp ok
          obtain ⟨⟨later, lastRows, lastBytes⟩, chosen, ok⟩ := bind_ok_iff.mp ok
          cases ok
          obtain rfl := checked_u64_inv one
          obtain rfl := checked_u64_inv more
          obtain ⟨rowsSum, bytesSum, rowsFit, bytesFit⟩ := ih later (rows + 1) (bytes + action.rowBytes) room (by omega) chosen
          refine ⟨?_, ?_, rowsFit, bytesFit⟩
          · rw [rowsSum, List.length_cons]
            omega
          · rw [bytesSum, actionBytes, actionBytes, List.map_cons, List.sum_cons]
            omega

section

variable {Row : Type} [DecidableEq Row] (spec : JoinSpec Row) (side : InputSide) (row : Row) (weight : Int)

-- The measured sizes of the rows that a candidate has to emit, in their order.
def actionSizes (entry : Entry Row) : List Nat :=
  (if Matches spec side row entry then [pairSize spec side row entry.row] else []) ++
    (if Flips spec side row weight entry then [spec.singleBytes side.opposite entry.row] else [])

-- What a page has to emit; a pending candidate has emitted its pair before.
def owedSizes (pending : Option CandidateExpectation) (page : List (Entry Row)) : List Nat :=
  (page.flatMap (actionSizes spec side row weight)).drop (if pending.isSome then 1 else 0)

omit [DecidableEq Row] in
theorem classified_sizes (entry : Entry Row) (classified : Classified)
    (ok : classifyCandidate spec.mode side weight (candidateProbe spec side row weight entry) = .ok classified) :
    classified.actions.map OutputAction.rowBytes = actionSizes spec side row weight entry := by
  unfold classifyCandidate at ok
  obtain ⟨_, _, ok⟩ := bind_ok_iff.mp ok
  obtain ⟨moved, applied, ok⟩ := bind_ok_iff.mp ok
  obtain ⟨_, _, ok⟩ := bind_ok_iff.mp ok
  obtain ⟨pair, paired, ok⟩ := bind_ok_iff.mp ok
  obtain ⟨eligibility, flipped, ok⟩ := bind_ok_iff.mp ok
  obtain ⟨rfl, _⟩ := apply_delta_inv spec side row weight entry moved applied
  obtain rfl := Except.ok.inj ok
  rw [List.map_append, actionSizes]
  congr 1
  · unfold classifyPair at paired
    by_cases hit : Matches spec side row entry
    · rw [if_pos hit]
      have known : (candidateProbe spec side row weight entry).truth = .true ∧ emitsPairs spec.mode = true := hit
      have measured : (candidateProbe spec side row weight entry).outputBytes.pair = some (pairSize spec side row entry.row) :=
        if_pos hit
      rw [if_pos known] at paired
      obtain ⟨_, _, paired⟩ := bind_ok_iff.mp paired
      rw [measured] at paired
      rw [← Except.ok.inj paired]
      rfl
    · rw [if_neg hit]
      have known : ¬ ((candidateProbe spec side row weight entry).truth = .true ∧ emitsPairs spec.mode = true) := hit
      rw [if_neg known] at paired
      rw [← Except.ok.inj paired]
      rfl
  · unfold classifyEligibility at flipped
    by_cases flips : Flips spec side row weight entry
    · rw [if_pos flips]
      have known : candidateSideIsOutput spec.mode side.opposite = true ∧
          candidateEligible spec.mode (candidateProbe spec side row weight entry).oldCounts ≠
            candidateEligible spec.mode (entry.shifted spec side row weight) := flips
      have measured : (candidateProbe spec side row weight entry).outputBytes.candidateOnly =
          some (spec.singleBytes side.opposite entry.row) := if_pos flips
      rw [if_pos known] at flipped
      obtain ⟨_, _, flipped⟩ := bind_ok_iff.mp flipped
      rw [measured] at flipped
      rw [← Except.ok.inj flipped]
      rfl
    · rw [if_neg flips]
      have known : ¬ (candidateSideIsOutput spec.mode side.opposite = true ∧
          candidateEligible spec.mode (candidateProbe spec side row weight entry).oldCounts ≠
            candidateEligible spec.mode (entry.shifted spec side row weight)) := flips
      rw [if_neg known] at flipped
      rw [← Except.ok.inj flipped]
      rfl

end

-- One candidate of the loop: what it emits, and whether the page goes on.
theorem process_cons {mode : JoinMode} {budget : WorkBudget} {pending : Option CandidateExpectation} {candidate : CandidateProbe}
    {rest : List CandidateProbe} {state after : PageProgress}
    (ok : processCandidates mode budget pending (candidate :: rest) state = .ok after) :
    ∃ classified first selected rows bytes,
      classifyCandidate mode state.progress.side state.progress.eventWeight candidate = .ok classified ∧
      resumeAt pending classified = .ok first ∧
      selectActions budget (classified.actions.drop first) state.outputRows state.outputBytes = .ok (selected, rows, bytes) ∧
      ((selected.length ≠ classified.actions.length - first ∧ after.actions = state.actions ++ selected ∧
          after.outputRows = rows ∧ after.outputBytes = bytes) ∨
        ∃ next, selected.length = classified.actions.length - first ∧ next.actions = state.actions ++ selected ∧
          next.outputRows = rows ∧ next.outputBytes = bytes ∧ next.progress.side = state.progress.side ∧
          next.progress.eventWeight = state.progress.eventWeight ∧
          processCandidates mode budget none rest next = .ok after) := by
  rw [processCandidates] at ok
  obtain ⟨classified, read, ok⟩ := bind_ok_iff.mp ok
  obtain ⟨first, resumed, ok⟩ := bind_ok_iff.mp ok
  obtain ⟨⟨selected, rows, bytes⟩, chosen, ok⟩ := bind_ok_iff.mp ok
  refine ⟨classified, first, selected, rows, bytes, read, resumed, chosen, ?_⟩
  by_cases short : selected.length ≠ classified.actions.length - first
  · simp only [if_pos short] at ok
    left
    unfold PageProgress.stop at ok
    split at ok
    · obtain ⟨_, ok⟩ := refuse_bind_ok.mp ok
      obtain rfl := Except.ok.inj ok
      exact ⟨short, rfl, rfl, rfl⟩
    · obtain rfl := Except.ok.inj ok
      exact ⟨short, rfl, rfl, rfl⟩
  · simp only [if_neg short] at ok
    right
    obtain ⟨next, completed, ok⟩ := bind_ok_iff.mp ok
    unfold PageProgress.complete at completed
    obtain ⟨progress, moved, result⟩ := bind_ok_iff.mp completed
    obtain rfl := Except.ok.inj result
    obtain ⟨_, sided, weighed, _⟩ := complete_candidate_frame moved
    exact ⟨_, not_not.mp short, rfl, rfl, rfl, sided, weighed, ok⟩

theorem process_accounted {mode : JoinMode} {budget : WorkBudget} (page : List CandidateProbe)
    (pending : Option CandidateExpectation) (state : PageProgress) {after : PageProgress} (accounted : Accounted budget state)
    (ok : processCandidates mode budget pending page state = .ok after) :
    Accounted budget after ∧ ∃ more, after.actions = state.actions ++ more := by
  induction page generalizing pending state with
  | nil =>
      obtain rfl := Except.ok.inj ok
      exact ⟨accounted, [], (List.append_nil _).symm⟩
  | cons candidate rest ih =>
      obtain ⟨classified, first, selected, rows, bytes, _, _, chosen, outcome⟩ := process_cons ok
      obtain ⟨rowsSum, bytesSum, rowsFit, bytesFit⟩ := select_spent budget _ selected _ _ rows bytes accounted.rowLimit
        accounted.byteLimit chosen
      have counted (reached : PageProgress) (actions : reached.actions = state.actions ++ selected)
          (rowed : reached.outputRows = rows) (sized : reached.outputBytes = bytes) : Accounted budget reached := by
        refine ⟨?_, ?_, by rw [rowed]; exact rowsFit, by rw [rowed, sized]; exact bytesFit⟩
        · rw [rowed, rowsSum, actions, List.length_append, accounted.rows]
        · rw [sized, bytesSum, actions, accounted.bytes, actionBytes, actionBytes, actionBytes, List.map_append, List.sum_append]
      rcases outcome with ⟨_, actions, rowed, sized⟩ | ⟨next, _, actions, rowed, sized, _, _, goes⟩
      · exact ⟨counted after actions rowed sized, selected, actions⟩
      · obtain ⟨whole, more, appended⟩ := ih none next (counted next actions rowed sized) goes
        exact ⟨whole, selected ++ more, by rw [appended, actions, List.append_assoc]⟩

section

variable {Row : Type} [DecidableEq Row] (spec : JoinSpec Row) (side : InputSide) (row : Row) (weight : Int)

theorem resume_skips {pending : Option CandidateExpectation} {classified : Classified} {first : Nat}
    (ok : resumeAt pending classified = .ok first) :
    first = (if pending.isSome then 1 else 0) ∧ first ≤ classified.actions.length := by
  cases pending with
  | none =>
      cases ok
      exact ⟨rfl, Nat.zero_le _⟩
  | some expected =>
      obtain ⟨_, ok⟩ := refuse_bind_ok.mp ok
      obtain ⟨follows, ok⟩ := refuse_bind_ok.mp ok
      rw [Bool.not_eq_false'] at follows
      obtain ⟨one, two, both⟩ := follows_two _ follows
      cases ok
      refine ⟨rfl, ?_⟩
      rw [both]
      exact Nat.le_succ 1

-- A page's output begins with the first row that it owes. The induction runs on
-- to the first candidate with something to emit.
omit [DecidableEq Row] in
theorem process_first (budget : WorkBudget) (page : List (Entry Row)) (pending : Option CandidateExpectation)
    (state after : PageProgress) (sided : state.progress.side = side) (weighed : state.progress.eventWeight = weight)
    (accounted : Accounted budget state) (nothing : state.actions = [])
    (ok : processCandidates spec.mode budget pending (page.map (candidateProbe spec side row weight)) state = .ok after) :
    (after.actions.map OutputAction.rowBytes).head? = (owedSizes spec side row weight pending page).head? := by
  induction page generalizing pending state with
  | nil =>
      obtain rfl := Except.ok.inj ok
      rw [nothing, owedSizes, List.flatMap_nil, List.drop_nil]
      rfl
  | cons entry rest ih =>
      rw [List.map_cons] at ok
      obtain ⟨classified, first, selected, rows, bytes, read, resumed, chosen, outcome⟩ := process_cons ok
      rw [sided, weighed] at read
      obtain ⟨skipped, inside⟩ := resume_skips resumed
      have sizes := classified_sizes spec side row weight entry classified read
      have owed : owedSizes spec side row weight pending (entry :: rest) =
          (classified.actions.drop first).map OutputAction.rowBytes ++ owedSizes spec side row weight none rest := by
        rw [owedSizes, owedSizes, List.flatMap_cons, ← sizes, ← skipped,
          List.drop_append_of_le_length (by rw [List.length_map]; exact inside), List.map_drop]
        rfl
      have empty : state.outputRows = 0 ∧ state.outputBytes = 0 := by
        rw [accounted.rows, accounted.bytes, nothing]
        exact ⟨rfl, rfl⟩
      have picked := select_shape budget _ _ _ _ _ _ chosen
      rw [owed]
      cases due : classified.actions.drop first with
      | nil =>
          rw [due, List.take_nil] at picked
          rcases outcome with ⟨short, _⟩ | ⟨next, _, actions, rowed, sized, sidedNext, weighedNext, goes⟩
          · have length := congrArg List.length due
            rw [List.length_drop, List.length_nil] at length
            rw [picked, length] at short
            exact absurd rfl short
          · rw [picked, List.append_nil, nothing] at actions
            rw [due, picked] at chosen
            obtain ⟨rowsSum, bytesSum, rowsFit, bytesFit⟩ := select_spent budget [] [] _ _ rows bytes accounted.rowLimit
              accounted.byteLimit chosen
            refine ih none next (sidedNext.trans sided) (weighedNext.trans weighed) ⟨?_, ?_, ?_, ?_⟩ actions goes
            · rw [rowed, rowsSum, empty.1, actions]
              rfl
            · rw [sized, bytesSum, empty.2, actions]
              rfl
            · rw [rowed]
              exact rowsFit
            · rw [rowed, sized]
              exact bytesFit
      | cons action later =>
          rw [due, empty.1] at chosen
          have some := select_first budget chosen
          rw [due] at picked
          obtain ⟨tail, same⟩ : ∃ tail, selected = action :: tail := by
            cases chosenList : selected with
            | nil => exact absurd chosenList some
            | cons head tail =>
                rw [chosenList, List.length_cons, List.take_succ_cons] at picked
                exact ⟨tail, by rw [(List.cons.inj picked).1]⟩
          have grown : ∃ more, after.actions = selected ++ more := by
            rcases outcome with ⟨_, actions, _, _⟩ | ⟨next, _, actions, rowed, sized, _, _, goes⟩
            · exact ⟨[], by rw [actions, nothing, List.nil_append, List.append_nil]⟩
            · obtain ⟨rowsSum, bytesSum, rowsFit, bytesFit⟩ := select_spent budget _ selected 0 _ rows bytes (Nat.zero_le _)
                (.inl (by rw [empty.2]; exact Nat.zero_le _)) chosen
              rw [nothing, List.nil_append] at actions
              obtain ⟨_, more, appended⟩ := process_accounted _ none next
                ⟨by rw [rowed, rowsSum, actions, Nat.zero_add], by rw [sized, bytesSum, actions, empty.2, Nat.zero_add],
                  by rw [rowed]; exact rowsFit, by rw [rowed, sized]; exact bytesFit⟩ goes
              exact ⟨more, by rw [appended, actions]⟩
          obtain ⟨more, whole⟩ := grown
          rw [whole, same]
          rfl

end

end Shiba.Join
