import Shiba.Join.Halfway

set_option autoImplicit false

namespace Shiba.Join

open Shiba.Execution Weighted

section

variable {Row : Type} [DecidableEq Row] (spec : JoinSpec Row)

-- An event in progress: `entries` and `outputs` are the other side and the
-- output before it, and the rows of `done` have met it.
structure InProgress (state : JoinState Row) (current : Current Row) (progress : InputProgress) (entries : List (Entry Row))
    (outputs : List (OutputRow Row × Int)) (pending : Option CandidateExpectation) (done rest : List (Entry Row)) : Prop where
  here : state.current = some current
  settled : Settled spec state.consumed (setSide state.arrangement current.event.side.opposite entries) state.nextRowId outputs
  natural : 0 ≤ bagOf state.consumed current.event.side current.row + current.event.weight
  representable : Representable spec state.consumed current.event.side current.row current.event.weight
  underway : Underway current.event progress
  owned : progress.expectedOwn = expectedOwn (state.arrangement current.event.side) current.row
  split : entries.filter (fun entry => spec.probed current.event.side current.row entry.row) = done ++ rest
  ahead : Behind progress.candidateAfter rest
  reached : ∀ entry ∈ done, entry.rowId ≤ cursor progress
  matched : progress.oppositeCounts.matched = gathered spec current.event.side current.row .true done
  unknown : progress.oppositeCounts.unknown = gathered spec current.event.side current.row .unknown done
  shifted : state.arrangement current.event.side.opposite =
    entries.map (Entry.shiftTo spec current.event.side current.row current.event.weight (cursor progress))
  emitted : ∀ key, weight state.outputs key = weight outputs key +
    countedOutput spec current.event.side current.row current.event.weight done key +
    weight (begunRows current.event.side current.row current.event.weight pending rest) key
  resumes : Resumes spec current.event.side current.row current.event.weight pending rest

theorem start_ok (state : JoinState Row) (row : Row) (event : InputEventFacts) (idle : state.current = none)
    (settled : Settled spec state.consumed state.arrangement state.nextRowId state.outputs) (valid : event.validate = .ok ())
    (natural : 0 ≤ bagOf state.consumed event.side row + event.weight)
    (representable : Representable spec state.consumed event.side row event.weight) :
    ∃ after current progress rest, stepPreflight state row event = .ok after ∧ current.continuation = scanAt none progress ∧
      InProgress spec after current progress (state.arrangement event.side.opposite) state.outputs none [] rest := by
  have own := own_valid spec state.consumed state.arrangement state.outputs settled row natural representable
  have loaded : loadOwnExpectation (state.arrangement event.side) row event.weight =
      .ok (expectedOwn (state.arrangement event.side) row) := by
    unfold loadOwnExpectation
    simp only [own, ok_bind]
    rfl
  have started : JoinContinuation.startInput event (expectedOwn (state.arrangement event.side) row) =
      .ok (.probe (.fromEvent event (expectedOwn (state.arrangement event.side) row))) := by
    rw [JoinContinuation.startInput, valid, ok_bind, own, ok_bind]
    rfl
  refine ⟨{ state with current := some ⟨row, event, .probe (.fromEvent event (expectedOwn (state.arrangement event.side) row))⟩ },
    ⟨row, event, .probe (.fromEvent event (expectedOwn (state.arrangement event.side) row))⟩,
    .fromEvent event (expectedOwn (state.arrangement event.side) row),
    (state.arrangement event.side.opposite).filter fun entry => spec.probed event.side row entry.row, ?_, rfl, ?_⟩
  · rw [stepPreflight, idle]
    simp only [Option.isSome_none, loaded, started, ok_bind]
    rfl
  · exact {
      here := rfl
      settled := by
        rw [set_side_self]
        exact settled
      natural := natural
      representable := representable
      underway := ⟨valid, rfl, rfl, rfl, rfl, own, fun _ same => (by cases same), ⟨Nat.zero_le _, Nat.zero_le _⟩⟩
      owned := rfl
      split := (List.nil_append _).symm
      ahead := behind_filter _ none _ (settled.ordered event.side.opposite)
      reached := fun _ member => by cases member
      matched := rfl
      unknown := rfl
      shifted := by
        have still : ∀ entry ∈ state.arrangement event.side.opposite, entry.shiftTo spec event.side row event.weight 0 = entry :=
          fun entry member => if_neg (by have known := (settled.identified event.side.opposite entry member).1; omega)
        exact (List.map_congr_left still).trans (List.map_id _) |>.symm
      emitted := fun key => by simp [countedOutput, begunRows]
      resumes := fun _ same => by cases same }

omit [DecidableEq Row] in
-- A row that the key predicates leave out adds nothing to the output.
theorem effects_skipped (side : InputSide) (row : Row) (amount : Int) (entry : Entry Row)
    (seen : spec.probed side row entry.row = false) : effects spec side row amount entry = [] := by
  have known : entry.truth spec side row = .false := spec.skipped side row entry.row seen
  have misses : ¬ Matches spec side row entry := by
    rintro ⟨hit, _⟩
    cases hit.symm.trans known
  have stays : ¬ Flips spec side row amount entry := by
    rintro ⟨_, flips⟩
    exact flips (by rw [shifted_skipped spec side row amount entry seen])
  rw [effects, pairRows, transitionRows, if_neg misses, if_neg stays]
  rfl

theorem output_probed (side : InputSide) (row : Row) (amount : Int) (entries : List (Entry Row)) (key : OutputRow Row) :
    countedOutput spec side row amount (entries.filter fun entry => spec.probed side row entry.row) key =
      countedOutput spec side row amount entries key := by
  unfold countedOutput
  induction entries with
  | nil => rfl
  | cons entry rest ih =>
      cases seen : spec.probed side row entry.row with
      | true => simp only [List.filter_cons, seen, if_true, List.map_cons, List.sum_cons, ih]
      | false =>
          have silent := effects_skipped spec side row amount entry seen
          simp only [List.filter_cons, seen, List.map_cons, List.sum_cons, silent, weight_nil, Int.zero_add]
          simpa using ih

section

variable (state : JoinState Row) (current : Current Row) (progress : InputProgress) (entries : List (Entry Row))
  (outputs : List (OutputRow Row × Int)) (pending : Option CandidateExpectation) (done rest : List (Entry Row))
  (scan : InProgress spec state current progress entries outputs pending done rest)

include scan

theorem entries_stored (entry : Entry Row) (member : entry ∈ done ++ rest) : entry ∈ entries ∧
    spec.probed current.event.side current.row entry.row = true := by
  rw [← scan.split] at member
  exact List.mem_filter.mp member

theorem scan_settled : Behind none entries ∧ (∀ entry ∈ entries, 0 < entry.rowId) ∧
    ∀ entry ∈ entries, Meetable spec current.event.side current.row current.event.weight entry := by
  have settled := scan.settled
  have same : setSide state.arrangement current.event.side.opposite entries current.event.side.opposite = entries :=
    set_side_same _ _ _
  refine ⟨?_, ?_, ?_⟩
  · have ordered := settled.ordered current.event.side.opposite
    rw [same] at ordered
    exact ordered
  · intro entry member
    exact (settled.identified current.event.side.opposite entry (by rw [same]; exact member)).1
  · intro entry member
    exact all_meetable spec state.consumed _ outputs settled current.row scan.natural scan.representable entry (by rw [same]; exact member)

theorem scan_halfway : Halfway spec current.event.side current.row progress entries done rest := by
  obtain ⟨ordered, positive, _⟩ := scan_settled spec state current progress entries outputs pending done rest scan
  exact ⟨ordered, positive, scan.split, scan.ahead, scan.reached⟩

theorem remaining_rest : remaining spec current.event.side current.row (cursor progress)
    (state.arrangement current.event.side.opposite) = rest := by
  rw [scan.shifted]
  exact halfway_remaining current.event.weight rest
    (scan_halfway spec state current progress entries outputs pending done rest scan)

omit [DecidableEq Row] scan in
theorem required (continuation : JoinContinuation) (known : state.current = some current)
    (continued : current.continuation = continuation) (held : continuation.inputProgress = some progress) :
    requireCurrent state = .ok (current, progress) := by
  unfold requireCurrent
  simp only [known, continued, held]

theorem gathered_parts (truth : MatchTruth) (relevant : truth ≠ .false) :
    (gathered spec current.event.side current.row truth done : Int) +
      gathered spec current.event.side current.row truth rest =
        meeting spec state.consumed current.event.side current.row truth :=
  halfway_parts rest
    (scan_halfway spec state current progress entries outputs pending done rest scan) state.consumed state.arrangement
    state.nextRowId scan.settled.tallied truth relevant

theorem room_left : progress.Room spec current.event.side current.row rest := by
  have matched := gathered_parts spec state current progress entries outputs pending done rest scan .true (by decide)
  have unknown := gathered_parts spec state current progress entries outputs pending done rest scan .unknown (by decide)
  have matchedFits := scan.representable.matched
  have unknownFits := scan.representable.unknown
  unfold InputProgress.Room
  rw [scan.matched, scan.unknown]
  omega

theorem candidates_ok (count : Nat) (budget : WorkBudget) (continued : current.continuation = scanAt pending progress)
    (bounded : Bounded budget) (offered : rest ≠ [] → 0 < count)
    (fitting : Fitting spec current.event.side budget (rest.take count)) :
    ∃ after current' progress' later done' rest', stepCandidates spec state count budget = .ok after ∧
      InProgress spec after current' progress' entries outputs later done' rest' ∧
      (current'.continuation = scanAt later progress' ∨
        current'.continuation = .finalize progress' ∧ later = none ∧ rest' = []) := by
  obtain ⟨behind, positive, meetable⟩ := scan_settled spec state current progress entries outputs pending done rest scan
  have stored := entries_stored spec state current progress entries outputs pending done rest scan
  have room := room_left spec state current progress entries outputs pending done rest scan
  have left := remaining_rest spec state current progress entries outputs pending done rest scan
  have whole : rest.take count ++ rest.drop count = rest := List.take_append_drop count rest
  have paged : ∀ entry ∈ rest.take count, entry ∈ rest := fun entry member => List.mem_of_mem_take member
  have inPage : ∀ entry ∈ rest.take count, entry ∈ entries :=
    fun entry member => (stored entry (List.mem_append_right _ (paged entry member))).1
  have loaded : requireCurrent state = .ok (current, progress) :=
    required state current progress _ scan.here continued (by cases pending <;> rfl)
  have probed : probeCandidates spec current progress (state.arrangement current.event.side.opposite) count =
      { candidates := (rest.take count).map (candidateProbe spec current.event.side current.row current.event.weight)
        complete := (rest.drop count).isEmpty } := by
    simp only [probeCandidates, left]
  have resumes : Resumes spec current.event.side current.row current.event.weight pending (rest.take count) := by
    intro expected same
    obtain ⟨entry, tail, split, known⟩ := scan.resumes expected same
    have some : 0 < count := offered (by rw [split]; exact List.cons_ne_nil _ _)
    obtain ⟨more, rfl⟩ := Nat.exists_eq_succ_of_ne_zero (Nat.pos_iff_ne_zero.mp some)
    exact ⟨entry, tail.take more, by rw [split]; rfl, known⟩
  have filled : rest.take count = [] → (rest.drop count).isEmpty = true := by
    intro empty
    by_cases any : rest = []
    · rw [any, List.drop_nil]
      rfl
    · have some := offered any
      rcases List.take_eq_nil_iff.mp empty with zero | none
      · omega
      · exact absurd none any
  have room' : progress.Room spec current.event.side current.row (rest.take count) :=
    room_of_part spec current.event.side current.row (by rw [whole]; exact room)
  obtain ⟨plan, later, added, waiting, plans, planned⟩ := plan_ok spec current.event.side current.row current.event.weight bounded rfl rfl scan.underway
    (behind_take count _ rest scan.ahead) (fun entry member => meetable entry (inPage entry member)) resumes room' filled fitting
  have restSplit : rest = added ++ (waiting ++ rest.drop count) := by
    rw [← List.append_assoc, ← planned.split, whole]
  have restStored : ∀ entry ∈ rest, entry ∈ entries := fun entry member => (stored entry (List.mem_append_right _ member)).1
  have addedRest : ∀ entry ∈ added, entry ∈ rest := fun entry member => by
    rw [restSplit]
    exact List.mem_append_left _ member
  have identified : ∀ entry ∈ added, 0 < entry.rowId := fun entry member => positive entry (restStored entry (addedRest entry member))
  obtain ⟨halfway, changed⟩ := halfway_next current.event.weight (by
      rw [← restSplit]
      exact scan_halfway spec state current progress entries outputs pending done rest scan)
  have ordered : Behind none (state.arrangement current.event.side.opposite) := by
    rw [scan.shifted]
    exact shift_behind spec current.event.side current.row current.event.weight _ none entries behind
  have held : ∀ entry ∈ rest, Held (state.arrangement current.event.side.opposite) entry := by
    intro entry member
    rw [scan.shifted]
    exact shift_held spec current.event.side current.row current.event.weight _ entries entry (restStored entry member)
  obtain ⟨rows, appended, written⟩ := page_appended spec current.event.side current.row current.event.weight ordered
    (fun entry member => held entry (paged entry member)) planned
  rw [← scan.shifted] at changed
  obtain ⟨matched, unknown⟩ := past_all_counts spec current.event.side current.row added progress
  obtain ⟨_, _, _, _, owned⟩ := past_all_frame spec current.event.side current.row added progress
  have own : setSide state.arrangement current.event.side.opposite (entries.map
      (Entry.shiftTo spec current.event.side current.row current.event.weight
        (cursor (progress.pastAll spec current.event.side current.row added)))) current.event.side =
          state.arrangement current.event.side := set_side_other _ _ _ (opposite_ne current.event.side).symm
  have stepped : stepCandidates spec state count budget = .ok { state with
      arrangement := setSide state.arrangement current.event.side.opposite (entries.map
        (Entry.shiftTo spec current.event.side current.row current.event.weight
          (cursor (progress.pastAll spec current.event.side current.row added))))
      current := some { current with continuation := plan.next }
      outputs := state.outputs ++ rows } := by
    unfold stepCandidates
    simp only [loaded, ok_bind]
    rw [probed, continued, plans, ok_bind]
    simp only [appended, planned.changed, changed, ok_bind]
    rfl
  have begunLater : begunRows current.event.side current.row current.event.weight later (waiting ++ rest.drop count) =
      begunRows current.event.side current.row current.event.weight later waiting := by
    cases later with
    | none => rfl
    | some expected =>
        obtain ⟨entry, tail, rfl, _⟩ := planned.resumes expected rfl
        rfl
  have begunPage : begunRows current.event.side current.row current.event.weight pending (rest.take count) =
      begunRows current.event.side current.row current.event.weight pending rest := by
    cases pending with
    | none => rfl
    | some expected =>
        obtain ⟨entry, tail, page, _⟩ := resumes expected rfl
        rw [page, ← whole, page]
        rfl
  refine ⟨_, { current with continuation := plan.next }, progress.pastAll spec current.event.side current.row added, later,
    done ++ added, waiting ++ rest.drop count, stepped, ?_, ?_⟩
  · exact {
      here := rfl
      settled := by
        simp only [set_side_twice]
        exact scan.settled
      natural := scan.natural
      representable := scan.representable
      underway := past_all_underway spec current.event.side current.row scan.underway identified
        (room_of_part spec current.event.side current.row (by rw [← restSplit]; exact room))
      owned := by
        simp only [own]
        exact owned.trans scan.owned
      split := halfway.split
      ahead := halfway.ahead
      reached := halfway.reached
      matched := by rw [matched, gathered_append, scan.matched]
      unknown := by rw [unknown, gathered_append, scan.unknown]
      shifted := set_side_same _ _ _
      emitted := by
        intro key
        have parts := congrArg (fun items => weight items key) written
        simp only [weight_append, begunPage] at parts
        have added' : weight (added.flatMap (effects spec current.event.side current.row current.event.weight)) key =
            countedOutput spec current.event.side current.row current.event.weight added key :=
          total_flat_map added (effects spec current.event.side current.row current.event.weight) _
        have both : countedOutput spec current.event.side current.row current.event.weight (done ++ added) key =
            countedOutput spec current.event.side current.row current.event.weight done key +
              countedOutput spec current.event.side current.row current.event.weight added key := by
          unfold countedOutput
          rw [List.map_append, List.sum_append]
        have before := scan.emitted key
        simp only [weight_append, begunLater, both]
        omega
      resumes := by
        intro expected same
        obtain ⟨entry, tail, split, known⟩ := planned.resumes expected same
        exact ⟨entry, tail ++ rest.drop count, by rw [split]; rfl, known⟩ }
  · simp only [planned.next, scanNext]
    by_cases finished : (waiting.isEmpty && (rest.drop count).isEmpty) = true
    · rw [if_pos finished]
      apply Or.inr
      rw [Bool.and_eq_true, List.isEmpty_iff, List.isEmpty_iff] at finished
      refine ⟨rfl, ?_, by rw [finished.1, finished.2]; rfl⟩
      cases pends : later with
      | none => rfl
      | some expected =>
          obtain ⟨_, _, filled, _⟩ := planned.resumes expected pends
          rw [finished.1] at filled
          cases filled
    · rw [if_neg finished]
      exact Or.inl rfl

end

end

end Shiba.Join
