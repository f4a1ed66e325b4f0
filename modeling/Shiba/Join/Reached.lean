import Shiba.Join.Finalize

set_option autoImplicit false

namespace Shiba.Join

open Shiba.Execution Weighted

theorem signed_count_inv {base moved : Nat} {delta : Int} {name : String}
    (counted : checkedSignedCount base delta name = .ok moved) :
    base ≤ bigintMax ∧ 0 ≤ base + delta ∧ base + delta ≤ bigintMax ∧ moved = (base + delta).toNat := by
  unfold checkedSignedCount at counted
  obtain ⟨_, known, later⟩ := bind_ok_iff.mp counted
  obtain ⟨inside, result⟩ := refuse_bind_ok.mp later
  have small := of_decide_eq_false (refuse_ok.mp known)
  rw [Bool.or_eq_false_iff, decide_eq_false_iff_not, decide_eq_false_iff_not] at inside
  refine ⟨by omega, by omega, by omega, (Except.ok.inj result).symm⟩

theorem count_sum_inv (left right sum : Nat) (name : String) (counted : checkedCountSum left right name = .ok sum) :
    sum = left + right := by
  unfold checkedCountSum checkedU64 at counted
  obtain ⟨result, summed, later⟩ := bind_ok_iff.mp counted
  obtain ⟨_, whole⟩ := refuse_bind_ok.mp summed
  obtain ⟨_, _, same⟩ := bind_ok_iff.mp later
  rw [← Except.ok.inj same, ← Except.ok.inj whole]

theorem counts_inv (counts : MatchCounts) (valid : counts.validate = .ok ()) : counts.Fit := by
  unfold MatchCounts.validate validateCount at valid
  obtain ⟨matched, unknown⟩ := refuse_bind_ok.mp valid
  have first := of_decide_eq_false matched
  have second := of_decide_eq_false (refuse_ok.mp unknown)
  exact ⟨by omega, by omega⟩

section

variable {Row : Type} (spec : JoinSpec Row) (side : InputSide) (row : Row) (weight : Int)

-- The counts that the event moves stay natural numbers.
structure Movable (entry : Entry Row) : Prop where
  matched : entry.truth spec side row = .true → 0 ≤ entry.counts.matched + weight
  unknown : entry.truth spec side row = .unknown → 0 ≤ entry.counts.unknown + weight

theorem apply_delta_inv (entry : Entry Row) (moved : MatchCounts)
    (applied : applyMatchDelta entry.counts (entry.truth spec side row) weight = .ok moved) :
    moved = entry.shifted spec side row weight ∧ Movable spec side row weight entry := by
  unfold applyMatchDelta at applied
  obtain ⟨_, _, later⟩ := bind_ok_iff.mp applied
  unfold Entry.shifted countsAfter
  cases truth : entry.truth spec side row with
  | false =>
      rw [truth] at later
      refine ⟨(Except.ok.inj later).symm, ⟨?_, ?_⟩⟩
      · intro hit
        rw [truth] at hit
        cases hit
      · intro hit
        rw [truth] at hit
        cases hit
  | true =>
      rw [truth] at later
      obtain ⟨matched, counted, result⟩ := bind_ok_iff.mp later
      obtain ⟨_, natural, _, same⟩ := signed_count_inv counted
      refine ⟨?_, ⟨fun _ => natural, ?_⟩⟩
      · rw [← Except.ok.inj result, same]
      · intro hit
        rw [truth] at hit
        cases hit
  | unknown =>
      rw [truth] at later
      obtain ⟨unknown, counted, result⟩ := bind_ok_iff.mp later
      obtain ⟨_, natural, _, same⟩ := signed_count_inv counted
      refine ⟨?_, ⟨?_, fun _ => natural⟩⟩
      · rw [← Except.ok.inj result, same]
      · intro hit
        rw [truth] at hit
        cases hit

theorem classify_inv (entry : Entry Row) (classified : Classified)
    (judged : classifyCandidate spec.mode side weight (candidateProbe spec side row weight entry) = .ok classified) :
    classified.expected = expectationOf spec side row weight entry ∧ Movable spec side row weight entry := by
  unfold classifyCandidate at judged
  obtain ⟨_, _, judged⟩ := bind_ok_iff.mp judged
  obtain ⟨moved, applied, judged⟩ := bind_ok_iff.mp judged
  obtain ⟨_, _, judged⟩ := bind_ok_iff.mp judged
  obtain ⟨pair, _, judged⟩ := bind_ok_iff.mp judged
  obtain ⟨eligibility, _, result⟩ := bind_ok_iff.mp judged
  obtain ⟨rfl, movable⟩ := apply_delta_inv spec side row weight entry moved applied
  refine ⟨?_, movable⟩
  rw [← Except.ok.inj result]
  rfl

theorem complete_candidate_inv {progress after : InputProgress} {entry : Entry Row}
    (completed : progress.completeCandidate (expectationOf spec side row weight entry) = .ok after) :
    after = progress.past spec side row entry := by
  unfold InputProgress.completeCandidate at completed
  unfold InputProgress.past MatchCounts.add
  have known : (expectationOf spec side row weight entry).truth = entry.truth spec side row := rfl
  simp only [known] at completed
  cases truth : entry.truth spec side row with
  | false =>
      rw [truth] at completed
      exact (Except.ok.inj completed).symm
  | true =>
      rw [truth] at completed
      obtain ⟨matched, counted, result⟩ := bind_ok_iff.mp completed
      rw [← Except.ok.inj result, count_sum_inv _ _ _ _ counted]
      rfl
  | unknown =>
      rw [truth] at completed
      obtain ⟨unknown, counted, result⟩ := bind_ok_iff.mp completed
      rw [← Except.ok.inj result, count_sum_inv _ _ _ _ counted]
      rfl

-- What the loop did with a page: `done` is complete, and it went through unless `rest` is left.
structure Advanced (page : List (Entry Row)) (before after : PageProgress) (done rest : List (Entry Row)) : Prop where
  split : page = done ++ rest
  movable : ∀ entry ∈ done, Movable spec side row weight entry
  changed : after.changes = before.changes ++ changesOf spec side row weight done
  advanced : after.progress = before.progress.pastAll spec side row done
  completed : after.completed = true → rest = []

theorem stop_inv (state after : PageProgress) (classified : Classified) (emitted : Nat)
    (stopped : state.stop classified emitted = .ok after) :
    after.changes = state.changes ∧ after.progress = state.progress ∧ after.completed = false := by
  unfold PageProgress.stop at stopped
  split at stopped
  · obtain ⟨_, _, result⟩ := bind_ok_iff.mp stopped
    rw [← Except.ok.inj result]
    exact ⟨rfl, rfl, rfl⟩
  · rw [← Except.ok.inj stopped]
    exact ⟨rfl, rfl, rfl⟩

theorem complete_inv {state after : PageProgress} {classified : Classified} {entry : Entry Row}
    (known : classified.expected = expectationOf spec side row weight entry)
    (completed : state.complete classified = .ok after) :
    after.changes = state.changes ++ changesOf spec side row weight [entry] ∧
      after.progress = state.progress.past spec side row entry ∧ after.completed = state.completed := by
  unfold PageProgress.complete at completed
  obtain ⟨progress, moved, result⟩ := bind_ok_iff.mp completed
  rw [known] at moved result
  rw [← Except.ok.inj result, complete_candidate_inv spec side row weight moved]
  refine ⟨?_, rfl, rfl⟩
  unfold changesOf
  by_cases changes : (expectationOf spec side row weight entry).oldCounts ≠ (expectationOf spec side row weight entry).newCounts
  · simp [changes]
  · simp [changes]

-- By induction on the page, as the loop goes over it.
theorem process_inv (budget : WorkBudget) (page : List (Entry Row)) (pending : Option CandidateExpectation)
    (before after : PageProgress) (sided : before.progress.side = side) (weighed : before.progress.eventWeight = weight)
    (processed : processCandidates spec.mode budget pending (page.map (candidateProbe spec side row weight)) before = .ok after) :
    ∃ done rest, Advanced spec side row weight page before after done rest := by
  induction page generalizing pending before with
  | nil =>
      obtain rfl := Except.ok.inj processed
      exact ⟨[], [], rfl, fun _ member => (by cases member), (List.append_nil _).symm, rfl, fun _ => rfl⟩
  | cons entry tail ih =>
      rw [List.map_cons, processCandidates, sided, weighed] at processed
      obtain ⟨classified, judged, processed⟩ := bind_ok_iff.mp processed
      obtain ⟨first, _, processed⟩ := bind_ok_iff.mp processed
      obtain ⟨⟨selected, rows, bytes⟩, _, processed⟩ := bind_ok_iff.mp processed
      obtain ⟨known, movable⟩ := classify_inv spec side row weight entry classified judged
      simp only at processed
      split at processed
      · obtain ⟨changes, progress, halted⟩ := stop_inv _ _ _ _ processed
        refine ⟨[], entry :: tail, rfl, fun _ member => (by cases member), ?_, progress, ?_⟩
        · exact changes.trans (List.append_nil _).symm
        · intro completed
          rw [halted] at completed
          cases completed
      · obtain ⟨middle, completes, processed⟩ := bind_ok_iff.mp processed
        obtain ⟨changes, progress, running⟩ := complete_inv spec side row weight known completes
        obtain ⟨done, rest, split, moves, changed, advanced, completed⟩ := ih none middle
          (by rw [progress]; exact sided) (by rw [progress]; exact weighed) processed
        refine ⟨entry :: done, rest, by rw [split]; rfl, ?_, ?_, ?_, completed⟩
        · intro other member
          rcases List.mem_cons.mp member with rfl | later
          · exact movable
          · exact moves other later
        · have headed : changesOf spec side row weight (entry :: done) =
              changesOf spec side row weight [entry] ++ changesOf spec side row weight done := changes_cons spec side row weight entry done
          rw [changed, changes, headed, List.append_assoc]
          rfl
        · rw [advanced, progress]
          rfl

variable {event : InputEventFacts} {progress : InputProgress} {budget : WorkBudget}

-- What a planned page did, whether or not its sums could have failed.
theorem plan_inv {pending : Option CandidateExpectation} {page : List (Entry Row)} {complete : Bool} {plan : ActionPlan}
    (sided : progress.side = side) (weighed : progress.eventWeight = weight)
    (planned : planActions spec.mode (scanAt pending progress) event
      { candidates := page.map (candidateProbe spec side row weight), complete := complete } budget = .ok plan) :
    ∃ done rest later, page = done ++ rest ∧ (∀ entry ∈ done, Movable spec side row weight entry) ∧
      plan.candidateChanges = changesOf spec side row weight done ∧
      (plan.next = scanAt later (progress.pastAll spec side row done) ∨
        plan.next = .finalize (progress.pastAll spec side row done) ∧ rest = [] ∧ complete = true) := by
  unfold planActions at planned
  obtain ⟨_, _, opening⟩ := bind_ok_iff.mp planned
  obtain ⟨⟨start, begun⟩, opened, loop⟩ := bind_ok_iff.mp opening
  have parts : start = progress ∧ begun = pending := by
    cases pending <;> exact ⟨congrArg Prod.fst (Except.ok.inj opened).symm, congrArg Prod.snd (Except.ok.inj opened).symm⟩
  rw [parts.1, parts.2] at loop
  obtain ⟨_, _, loop⟩ := bind_ok_iff.mp loop
  obtain ⟨_, _, loop⟩ := bind_ok_iff.mp loop
  obtain ⟨_, _, loop⟩ := bind_ok_iff.mp loop
  obtain ⟨_, _, loop⟩ := bind_ok_iff.mp loop
  obtain ⟨state, processed, loop⟩ := bind_ok_iff.mp loop
  have loop := past_check (past_check loop)
  obtain ⟨next, continued, loop⟩ := bind_ok_iff.mp loop
  obtain ⟨_, _, result⟩ := bind_ok_iff.mp loop
  obtain ⟨done, rest, split, movable, changed, advanced, completed⟩ :=
    process_inv spec side row weight budget page pending { progress := progress } state sided weighed processed
  have planned : plan.candidateChanges = state.changes ∧ plan.next = next := by
    rw [← Except.ok.inj result]
    exact ⟨rfl, rfl⟩
  rw [planned.1, planned.2]
  unfold PageProgress.nextContinuation at continued
  cases halted : state.nextPending with
  | none =>
      rw [halted] at continued
      simp only at continued
      split at continued
      · rename_i finished
        rw [Bool.and_eq_true] at finished
        refine ⟨done, rest, none, split, movable, changed, Or.inr ⟨?_, completed finished.1, finished.2⟩⟩
        rw [← Except.ok.inj continued, advanced]
      · refine ⟨done, rest, none, split, movable, changed, Or.inl ?_⟩
        rw [← Except.ok.inj continued, advanced]
        rfl
  | some expected =>
      rw [halted] at continued
      obtain ⟨_, _, same⟩ := bind_ok_iff.mp continued
      refine ⟨done, rest, some expected, split, movable, changed, Or.inl ?_⟩
      rw [← Except.ok.inj same, advanced]
      rfl

-- What a planned end writes: the own row as it was loaded, with the counts of the scan.
theorem finalize_inv {plan : FinalizePlan} (planned : planFinalize spec.mode (.finalize progress) event
      (ownProbe spec event.side row progress.oppositeCounts progress.expectedOwn) budget = .ok plan) :
    progress.validate = .ok () ∧ ∃ kind,
      changeKind progress.expectedOwn.rowId (progress.expectedOwn.multiplicity + progress.eventWeight).toNat = .ok kind ∧
      plan.ownChange = ownChangeOf progress kind := by
  unfold planFinalize at planned
  have planned := past_check (past_check planned)
  obtain ⟨one, here, planned⟩ := bind_ok_iff.mp planned
  obtain rfl := Except.ok.inj here
  obtain ⟨_, valid, planned⟩ := bind_ok_iff.mp planned
  obtain ⟨same, planned⟩ := refuse_bind_ok.mp planned
  obtain ⟨⟨rowId, old⟩, before, planned⟩ := bind_ok_iff.mp planned
  obtain ⟨moved, counted, planned⟩ := bind_ok_iff.mp planned
  obtain ⟨kind, decided, planned⟩ := bind_ok_iff.mp planned
  obtain ⟨_, _, planned⟩ := bind_ok_iff.mp planned
  obtain ⟨_, _, result⟩ := bind_ok_iff.mp planned
  have loaded := not_not.mp (of_decide_eq_false same)
  have own : rowId = progress.expectedOwn.rowId ∧ old = progress.expectedOwn.multiplicity := by
    unfold ownProbe at before loaded
    cases known : progress.expectedOwn.rowId with
    | none =>
        rw [known] at before loaded
        have parts := Except.ok.inj before
        rw [← loaded]
        exact ⟨(congrArg Prod.fst parts).symm, (congrArg Prod.snd parts).symm⟩
    | some other =>
        rw [known] at before
        obtain ⟨_, parts⟩ := refuse_bind_ok.mp before
        exact ⟨(congrArg Prod.fst (Except.ok.inj parts)).symm, (congrArg Prod.snd (Except.ok.inj parts)).symm⟩
  obtain ⟨_, _, _, total⟩ := signed_count_inv counted
  rw [own.2] at total
  rw [own.1, total] at decided
  refine ⟨valid, kind, decided, ?_⟩
  rw [← Except.ok.inj result, own.1, own.2, total]
  rfl

end

end Shiba.Join
