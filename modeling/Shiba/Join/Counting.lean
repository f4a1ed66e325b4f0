import Shiba.Join.Reached

set_option autoImplicit false

namespace Shiba.Join

open Shiba.Execution Weighted

section

variable {Row : Type} [DecidableEq Row] (spec : JoinSpec Row)

-- The events of one side are in: its arrangement is the new one, and the other side has met them.
theorem tallied_next (consumed : List ((InputSide × Row) × Int)) (arrangement : InputSide → List (Entry Row)) (nextRowId : InputSide → Int) (side : InputSide)
    (items : List (Row × Int)) (own : List (Entry Row)) (next : Int) (met : Entry Row → Entry Row)
    (tallied : Tallied spec consumed arrangement nextRowId) (ordered : Behind none own) (fresh : 0 < next)
    (identified : ∀ entry ∈ own, 0 < entry.rowId ∧ entry.rowId < next) (distinct : (own.map Entry.row).Nodup)
    (natural : ∀ row, 0 ≤ bagOf consumed side row + weight items row)
    (stored : ∀ entry ∈ own, (entry.multiplicity : Int) = bagOf consumed side entry.row + weight items entry.row ∧
      0 < entry.multiplicity)
    (present : ∀ row, bagOf consumed side row + weight items row ≠ 0 → ∃ entry ∈ own, entry.row = row)
    (counted : ∀ entry ∈ own, Tally spec consumed side entry.row entry.counts)
    (kept : ∀ entry, (met entry).rowId = entry.rowId ∧ (met entry).row = entry.row ∧
      (met entry).multiplicity = entry.multiplicity)
    (shifted : ∀ entry ∈ arrangement side.opposite,
      Tally spec (consumed ++ eventsOf side items) side.opposite entry.row (met entry).counts) :
    Tallied spec (consumed ++ eventsOf side items)
      (setSide (setSide arrangement side.opposite ((arrangement side.opposite).map met)) side own)
      (setSide nextRowId side next) := by
  have near : setSide (setSide arrangement side.opposite ((arrangement side.opposite).map met)) side own side = own :=
    set_side_same _ _ _
  have far : setSide (setSide arrangement side.opposite ((arrangement side.opposite).map met)) side own side.opposite =
      (arrangement side.opposite).map met := by
    rw [set_side_other _ _ _ (opposite_ne side), set_side_same]
  have nearId : setSide nextRowId side next side = next := set_side_same _ _ _
  have farId : setSide nextRowId side next side.opposite = nextRowId side.opposite := set_side_other _ _ _ (opposite_ne side)
  have both : ∀ holds : InputSide → Prop, holds side → holds side.opposite → ∀ other, holds other := by
    intro holds here there other
    cases side <;> cases other <;> assumption
  refine ⟨both _ ?_ ?_, both _ ?_ ?_, both _ ?_ ?_, both _ ?_ ?_, both _ ?_ ?_, both _ ?_ ?_, both _ ?_ ?_, both _ ?_ ?_⟩
  · rw [near]
    exact ordered
  · rw [far]
    exact behind_map met (fun entry => (kept entry).1) none _ (tallied.ordered side.opposite)
  · rw [nearId]
    exact fresh
  · rw [farId]
    exact tallied.fresh side.opposite
  · rw [near, nearId]
    exact identified
  · rw [far, farId]
    intro entry member
    obtain ⟨old, inside, rfl⟩ := List.mem_map.mp member
    rw [(kept old).1]
    exact tallied.identified side.opposite old inside
  · rw [near]
    exact distinct
  · have rows : Entry.row ∘ met = Entry.row := funext fun entry => (kept entry).2.1
    rw [far, List.map_map, rows]
    exact tallied.distinct side.opposite
  · intro row
    rw [bag_events_own]
    exact natural row
  · intro row
    rw [bag_events_opposite]
    exact tallied.natural side.opposite row
  · rw [near]
    intro entry member
    rw [bag_events_own]
    exact stored entry member
  · rw [far]
    intro entry member
    obtain ⟨old, inside, rfl⟩ := List.mem_map.mp member
    rw [(kept old).2.1, (kept old).2.2, bag_events_opposite]
    exact tallied.stored side.opposite old inside
  · rw [near]
    intro row nonzero
    rw [bag_events_own] at nonzero
    exact present row nonzero
  · rw [far]
    intro row nonzero
    rw [bag_events_opposite] at nonzero
    obtain ⟨entry, member, same⟩ := tallied.present side.opposite row nonzero
    exact ⟨met entry, List.mem_map_of_mem member, (kept entry).2.1.trans same⟩
  · rw [near]
    intro entry member
    have known := counted entry member
    exact ⟨by rw [meeting_events_own]; exact known.matched, by rw [meeting_events_own]; exact known.unknown⟩
  · rw [far]
    intro entry member
    obtain ⟨old, inside, rfl⟩ := List.mem_map.mp member
    rw [(kept old).2.1]
    exact shifted old inside

-- An event that is being counted: `entries` is the other side before it, and the rows of `done` have met it.
structure Counting (state : JoinState Row) (current : Current Row) (progress : InputProgress)
    (entries done rest : List (Entry Row)) : Prop where
  here : state.current = some current
  tallied : Tallied spec state.consumed (setSide state.arrangement current.event.side.opposite entries) state.nextRowId
  sided : progress.side = current.event.side
  weighed : progress.eventWeight = current.event.weight
  present : current.event.weight ≠ 0
  natural : 0 ≤ bagOf state.consumed current.event.side current.row + current.event.weight
  owned : progress.expectedOwn = expectedOwn (state.arrangement current.event.side) current.row
  halfway : Halfway spec current.event.side current.row progress entries done rest
  movable : ∀ entry ∈ done, Movable spec current.event.side current.row current.event.weight entry
  matched : progress.oppositeCounts.matched = gathered spec current.event.side current.row .true done
  unknown : progress.oppositeCounts.unknown = gathered spec current.event.side current.row .unknown done
  shifted : state.arrangement current.event.side.opposite =
    entries.map (Entry.shiftTo spec current.event.side current.row current.event.weight (cursor progress))

-- Between two rows, within a scan, or behind its last candidate.
inductive Kept (state : JoinState Row) : Prop where
  | idle (free : state.current = none) (tallied : Tallied spec state.consumed state.arrangement state.nextRowId) : Kept state
  | scanning (current : Current Row) (progress : InputProgress) (entries done rest : List (Entry Row))
      (pending : Option CandidateExpectation) (counting : Counting spec state current progress entries done rest)
      (continued : current.continuation = scanAt pending progress) : Kept state
  | scanned (current : Current Row) (progress : InputProgress) (entries done : List (Entry Row))
      (counting : Counting spec state current progress entries done [])
      (continued : current.continuation = .finalize progress) : Kept state

theorem tallied_start : Tallied spec [] (fun _ => []) fun _ => 1 := (settled_start spec).tallied

theorem own_validated {expected : OwnExpectation} {amount : Int} (valid : expected.validateEvent amount = .ok ()) :
    expected.multiplicity ≤ bigintMax ∧ 0 ≤ expected.multiplicity + amount := by
  unfold OwnExpectation.validateEvent at valid
  obtain ⟨_, _, later⟩ := bind_ok_iff.mp valid
  obtain ⟨moved, counted, _⟩ := bind_ok_iff.mp later
  obtain ⟨known, natural, _⟩ := signed_count_inv counted
  exact ⟨known, natural⟩

theorem preflight_kept (state after : JoinState Row) (row : Row) (event : InputEventFacts) (kept : Kept spec state)
    (stepped : stepPreflight state row event = .ok after) : Kept spec after := by
  unfold stepPreflight at stepped
  obtain ⟨idle, stepped⟩ := refuse_bind_ok.mp stepped
  obtain ⟨own, loaded, stepped⟩ := bind_ok_iff.mp stepped
  obtain ⟨continuation, started, result⟩ := bind_ok_iff.mp stepped
  have free : state.current = none := Option.isSome_eq_false_iff.mp idle |> Option.isNone_iff_eq_none.mp
  have tallied : Tallied spec state.consumed state.arrangement state.nextRowId := by
    cases kept with
    | idle _ tallied => exact tallied
    | scanning current progress entries done rest pending counting continued
    | scanned current progress entries done counting continued =>
        rw [counting.here] at free
        cases free
  unfold loadOwnExpectation at loaded
  obtain ⟨_, valid, same⟩ := bind_ok_iff.mp loaded
  obtain rfl := Except.ok.inj same
  unfold JoinContinuation.startInput at started
  obtain ⟨_, sound, started⟩ := bind_ok_iff.mp started
  obtain ⟨_, _, begun⟩ := bind_ok_iff.mp started
  obtain rfl := Except.ok.inj begun
  have natural := (own_validated valid).2
  rw [(own_known spec state.consumed tallied event.side row).1] at natural
  rw [← Except.ok.inj result]
  refine .scanning ⟨row, event, .probe (.fromEvent event (expectedOwn (state.arrangement event.side) row))⟩
    (.fromEvent event (expectedOwn (state.arrangement event.side) row)) (state.arrangement event.side.opposite) []
    ((state.arrangement event.side.opposite).filter fun entry => spec.probed event.side row entry.row) none ?_ rfl
  exact {
    here := rfl
    tallied := by
      rw [set_side_self]
      exact tallied
    sided := rfl
    weighed := rfl
    present := (event_parts sound).2.1
    natural := natural
    owned := rfl
    halfway := ⟨tallied.ordered event.side.opposite, fun entry member => (tallied.identified _ entry member).1,
      (List.nil_append _).symm, behind_filter _ none _ (tallied.ordered event.side.opposite), fun _ member => by cases member⟩
    movable := fun _ member => by cases member
    matched := rfl
    unknown := rfl
    shifted := by
      have still : ∀ entry ∈ state.arrangement event.side.opposite, entry.shiftTo spec event.side row event.weight 0 = entry :=
        fun entry member => if_neg (by have known := (tallied.identified event.side.opposite entry member).1; omega)
      exact ((List.map_congr_left still).trans (List.map_id _)).symm }

section

variable (state after : JoinState Row) (current : Current Row) (progress : InputProgress) (entries done rest : List (Entry Row))

theorem candidates_kept (pending : Option CandidateExpectation) (count : Nat) (budget : WorkBudget)
    (counting : Counting spec state current progress entries done rest)
    (continued : current.continuation = scanAt pending progress)
    (stepped : stepCandidates spec state count budget = .ok after) : Kept spec after := by
  have loaded : requireCurrent state = .ok (current, progress) :=
    required state current progress _ counting.here continued (by cases pending <;> rfl)
  have left : remaining spec current.event.side current.row (cursor progress)
      (state.arrangement current.event.side.opposite) = rest := by
    rw [counting.shifted]
    exact halfway_remaining current.event.weight rest counting.halfway
  have probed : probeCandidates spec current progress (state.arrangement current.event.side.opposite) count =
      { candidates := (rest.take count).map (candidateProbe spec current.event.side current.row current.event.weight)
        complete := (rest.drop count).isEmpty } := by
    simp only [probeCandidates, left]
  unfold stepCandidates at stepped
  simp only [loaded, ok_bind] at stepped
  rw [probed, continued] at stepped
  obtain ⟨plan, planned, stepped⟩ := bind_ok_iff.mp stepped
  obtain ⟨rows, _, stepped⟩ := bind_ok_iff.mp stepped
  obtain ⟨moved, changed, result⟩ := bind_ok_iff.mp stepped
  obtain ⟨added, waiting, later, split, movable, changes, next⟩ := plan_inv spec current.event.side current.row
    current.event.weight counting.sided
    counting.weighed planned
  have whole : rest = added ++ (waiting ++ rest.drop count) := by
    rw [← List.append_assoc, ← split, List.take_append_drop]
  obtain ⟨halfway, applied⟩ := halfway_next current.event.weight (by rw [← whole]; exact counting.halfway)
  rw [changes, counting.shifted, applied] at changed
  obtain rfl := Except.ok.inj changed
  obtain ⟨matched, unknown⟩ := past_all_counts spec current.event.side current.row added progress
  obtain ⟨_, sided, weighed, _, owned⟩ := past_all_frame spec current.event.side current.row added progress
  have own : setSide state.arrangement current.event.side.opposite (entries.map
      (Entry.shiftTo spec current.event.side current.row current.event.weight
        (cursor (progress.pastAll spec current.event.side current.row added)))) current.event.side =
          state.arrangement current.event.side := set_side_other _ _ _ (opposite_ne current.event.side).symm
  have counted : Counting spec after { current with continuation := plan.next }
      (progress.pastAll spec current.event.side current.row added) entries (done ++ added) (waiting ++ rest.drop count) := by
    rw [← Except.ok.inj result]
    exact {
      here := rfl
      tallied := by
        simp only [set_side_twice]
        exact counting.tallied
      sided := sided.trans counting.sided
      weighed := weighed.trans counting.weighed
      present := counting.present
      natural := counting.natural
      owned := by
        simp only [own]
        exact owned.trans counting.owned
      halfway := halfway
      movable := by
        intro entry member
        rcases List.mem_append.mp member with old | new
        · exact counting.movable entry old
        · exact movable entry new
      matched := by rw [matched, gathered_append, counting.matched]
      unknown := by rw [unknown, gathered_append, counting.unknown]
      shifted := set_side_same _ _ _ }
  rcases next with scanning | ⟨finished, empty, complete⟩
  · exact .scanning _ _ entries _ _ later counted scanning
  · rw [empty, List.isEmpty_iff.mp complete] at counted
    exact .scanned _ _ entries _ counted finished

-- A row that the key predicates leave out has no count to move.
theorem counting_movable (counting : Counting spec state current progress entries done rest) (entry : Entry Row)
    (met : spec.probed current.event.side current.row entry.row = true → entry ∈ done) :
    Movable spec current.event.side current.row current.event.weight entry := by
  cases seen : spec.probed current.event.side current.row entry.row with
  | true => exact counting.movable entry (met seen)
  | false =>
      have known : entry.truth spec current.event.side current.row = .false :=
        spec.skipped current.event.side current.row entry.row seen
      refine ⟨fun hit => ?_, fun hit => ?_⟩
      · rw [known] at hit
        cases hit
      · rw [known] at hit
        cases hit

-- Behind the last candidate every row of the other side has met the event.
theorem counting_met (counting : Counting spec state current progress entries done []) :
    state.arrangement current.event.side.opposite =
        entries.map (Entry.met spec current.event.side current.row current.event.weight) ∧
      (∀ entry ∈ entries, Movable spec current.event.side current.row current.event.weight entry) ∧
      Tally spec state.consumed current.event.side current.row progress.oppositeCounts := by
  have parts := fun truth relevant => halfway_parts [] counting.halfway
    state.consumed state.arrangement state.nextRowId counting.tallied truth relevant
  refine ⟨?_, ?_, ?_, ?_⟩
  · rw [counting.shifted]
    exact halfway_met current.event.weight counting.halfway
  · intro entry member
    apply counting_movable spec state current progress entries done [] counting entry
    intro seen
    have split := counting.halfway.split
    rw [List.append_nil] at split
    rw [← split]
    exact List.mem_filter.mpr ⟨member, seen⟩
  · have all := parts .true (by decide)
    rw [counting.matched, ← all]
    simp [gathered]
  · have all := parts .unknown (by decide)
    rw [counting.unknown, ← all]
    simp [gathered]

end

omit [DecidableEq Row] in
theorem shifted_counts {side : InputSide} {row : Row} {amount : Int} {entry : Entry Row}
    (movable : Movable spec side row amount entry) :
    ((entry.shifted spec side row amount).matched : Int) =
        entry.counts.matched + (if truthOf spec.condition side row entry.row = .true then amount else 0) ∧
      ((entry.shifted spec side row amount).unknown : Int) =
        entry.counts.unknown + if truthOf spec.condition side row entry.row = .unknown then amount else 0 := by
  have natural := movable.matched
  have unknownNatural := movable.unknown
  unfold Entry.truth at natural unknownNatural
  unfold Entry.shifted countsAfter Entry.truth
  cases truth : truthOf spec.condition side row entry.row with
  | false => simp
  | true =>
      have enough := natural truth
      constructor
      · simp only [if_true]
        omega
      · simp
  | unknown =>
      have enough := unknownNatural truth
      constructor
      · simp
      · simp only [if_true]
        omega

omit [DecidableEq Row] in
-- A row of the other side that has met the event counts it.
theorem tally_shifted {consumed : List ((InputSide × Row) × Int)} {side : InputSide} {row : Row} {amount : Int}
    {entry : Entry Row} (tally : Tally spec consumed side.opposite entry.row entry.counts)
    (movable : Movable spec side row amount entry) :
    Tally spec (consumed ++ eventsOf side [(row, amount)]) side.opposite entry.row (entry.shifted spec side row amount) := by
  obtain ⟨matched, unknown⟩ := shifted_counts spec movable
  constructor
  · rw [meeting_events_opposite, ← tally.matched, total_cons, total_nil, Int.add_zero, matched]
    simp only [decide_eq_true_eq]
  · rw [meeting_events_opposite, ← tally.unknown, total_cons, total_nil, Int.add_zero, unknown]
    simp only [decide_eq_true_eq]

-- The own row counts what the scan has met, so its end is never refused for its counts.
theorem counting_agrees {state : JoinState Row} {current : Current Row} {progress : InputProgress}
    {entries done : List (Entry Row)} (counting : Counting spec state current progress entries done []) {own : Entry Row}
    (member : own ∈ state.arrangement current.event.side) (named : own.row = current.row) :
    own.counts = progress.oppositeCounts := by
  obtain ⟨_, _, tally⟩ := counting_met spec state current progress entries done counting
  have near : setSide state.arrangement current.event.side.opposite entries current.event.side =
      state.arrangement current.event.side := set_side_other _ _ _ (opposite_ne current.event.side).symm
  have mine := counting.tallied.tallied current.event.side own (by rw [near]; exact member)
  rw [named] at mine
  exact tally_unique spec mine tally

omit [DecidableEq Row] in
theorem progress_fit (progress : InputProgress) (valid : progress.validate = .ok ()) : progress.oppositeCounts.Fit := by
  unfold InputProgress.validate at valid
  have valid := past_check (past_check (past_check (past_check valid)))
  apply counts_inv
  cases after : progress.candidateAfter with
  | none =>
      rw [after] at valid
      exact valid
  | some rowId =>
      rw [after] at valid
      obtain ⟨_, _, valid⟩ := bind_ok_iff.mp valid
      exact valid

section

variable (state after : JoinState Row) (current : Current Row) (progress : InputProgress) (entries done : List (Entry Row))

theorem counting_sound (counting : Counting spec state current progress entries done [])
    (small : progress.expectedOwn.multiplicity ≤ bigintMax) (fit : progress.oppositeCounts.Fit) :
    OwnSound progress.expectedOwn progress.oppositeCounts := by
  have near : setSide state.arrangement current.event.side.opposite entries current.event.side =
      state.arrangement current.event.side := set_side_other _ _ _ (opposite_ne current.event.side).symm
  obtain ⟨_, absent, held⟩ := own_known spec state.consumed counting.tallied current.event.side current.row
  have identified := counting.tallied.identified current.event.side
  have stored := counting.tallied.stored current.event.side
  rw [near] at absent held identified stored
  rw [← counting.owned] at absent held
  refine ⟨fun missing => (absent missing).2, ?_, ?_, small, ?_, fit⟩
  · intro rowId known
    obtain ⟨own, _, member, _, same⟩ := held rowId known
    rw [same] at known
    rw [← Option.some.inj known]
    exact (identified own member).1
  · intro rowId known
    obtain ⟨own, _, member, _, same⟩ := held rowId known
    rw [same]
    exact (stored own member).2
  · intro rowId known
    obtain ⟨own, _, member, named, same⟩ := held rowId known
    rw [same]
    exact counting_agrees spec counting member named

theorem finalize_kept (budget : WorkBudget) (counting : Counting spec state current progress entries done [])
    (continued : current.continuation = .finalize progress) (stepped : stepFinalize spec state budget = .ok after) :
    Kept spec after := by
  have loaded : requireCurrent state = .ok (current, progress) :=
    required state current progress _ counting.here continued rfl
  obtain ⟨met, movable, tally⟩ := counting_met spec state current progress entries done counting
  have near : setSide state.arrangement current.event.side.opposite entries current.event.side =
      state.arrangement current.event.side := set_side_other _ _ _ (opposite_ne current.event.side).symm
  have far : setSide state.arrangement current.event.side.opposite entries current.event.side.opposite = entries :=
    set_side_same _ _ _
  unfold stepFinalize at stepped
  simp only [loaded, ok_bind] at stepped
  obtain ⟨own, owns, stepped⟩ := bind_ok_iff.mp stepped
  obtain ⟨expected, stepped⟩ := refuse_bind_ok.mp stepped
  obtain ⟨plan, planned, stepped⟩ := bind_ok_iff.mp stepped
  obtain ⟨rows, _, stepped⟩ := bind_ok_iff.mp stepped
  obtain ⟨moved, changed, result⟩ := bind_ok_iff.mp stepped
  have same : own = progress.expectedOwn := not_not.mp (of_decide_eq_false expected)
  unfold loadOwnExpectation at owns
  obtain ⟨_, validated, loads⟩ := bind_ok_iff.mp owns
  have held : expectedOwn (state.arrangement current.event.side) current.row = own := Except.ok.inj loads
  rw [show ((ownEntry (state.arrangement current.event.side) current.row).map Entry.expectation).getD {} = own from held]
    at validated
  obtain ⟨small, natural⟩ := own_validated validated
  rw [same] at small natural planned
  rw [continued] at planned
  obtain ⟨valid, kind, decided, change⟩ := finalize_inv spec current.row planned
  have sound := counting_sound spec state current progress entries done counting small (progress_fit progress valid)
  have tallied := counting.tallied
  have ordered := tallied.ordered current.event.side
  have identified := tallied.identified current.event.side
  have distinct := tallied.distinct current.event.side
  have stored := tallied.stored current.event.side
  have present := tallied.present current.event.side
  have counted := tallied.tallied current.event.side
  rw [near] at ordered identified distinct stored present counted
  obtain ⟨kind', own', decided', applied, facts⟩ := own_applied ordered (tallied.fresh current.event.side) identified distinct
    counting.owned (by rw [counting.weighed]; exact counting.present) (by rw [counting.weighed]; exact natural) sound
  rw [decided] at decided'
  obtain rfl := Except.ok.inj decided'
  rw [change, applied] at changed
  obtain rfl := Except.ok.inj changed
  obtain ⟨known, _, _⟩ := own_known spec state.consumed tallied current.event.side current.row
  rw [near, ← counting.owned] at known
  rw [counting.weighed] at facts
  have total : (((progress.expectedOwn.multiplicity : Int) + current.event.weight).toNat : Int) =
      bagOf state.consumed current.event.side current.row + current.event.weight := by
    rw [Int.toNat_of_nonneg natural, known]
  have mine : weight [(current.row, current.event.weight)] current.row = current.event.weight := by
    rw [weight_single, if_pos rfl]
  have apart : ∀ one, one ≠ current.row → weight [(current.row, current.event.weight)] one = 0 :=
    fun one different => by rw [weight_single, if_neg (Ne.symm different)]
  have next := tallied_next spec state.consumed _ state.nextRowId current.event.side [(current.row, current.event.weight)] own'
    (state.nextRowId current.event.side + 1) (Entry.met spec current.event.side current.row current.event.weight) tallied
    facts.ordered (by have fresh := tallied.fresh current.event.side; omega) facts.identified facts.distinct
    (by
      intro one
      by_cases equal : one = current.row
      · rw [equal, mine]
        exact counting.natural
      · rw [apart one equal, Int.add_zero]
        exact tallied.natural current.event.side one)
    (by
      intro entry member
      by_cases equal : entry.row = current.row
      · obtain ⟨multiplicity, _, positive⟩ := facts.mine entry member equal
        rw [equal, mine, multiplicity]
        exact ⟨total, positive⟩
      · rw [apart entry.row equal, Int.add_zero]
        exact stored entry (facts.others entry member equal))
    (by
      intro one nonzero
      by_cases equal : one = current.row
      · rw [equal, mine] at nonzero
        obtain ⟨entry, member, named⟩ := facts.present (by omega)
        exact ⟨entry, member, named.trans equal.symm⟩
      · rw [apart one equal, Int.add_zero] at nonzero
        obtain ⟨entry, member, rfl⟩ := present one nonzero
        exact ⟨entry, facts.kept entry member equal, rfl⟩)
    (by
      intro entry member
      by_cases equal : entry.row = current.row
      · rw [equal, (facts.mine entry member equal).2.1]
        exact tally
      · exact counted entry (facts.others entry member equal))
    (fun _ => ⟨rfl, rfl, rfl⟩)
    (by
      rw [far]
      intro entry member
      have old := tallied.tallied current.event.side.opposite entry (by rw [far]; exact member)
      exact tally_shifted spec old (movable entry member))
  rw [far, ← met, set_side_twice, set_side_self] at next
  rw [← Except.ok.inj result]
  exact .idle rfl next

end

theorem row_kept (state after : JoinState Row) (choice : Choice Row) (kept : Kept spec state)
    (stepped : joinStep spec state choice = .ok after) : Kept spec after := by
  cases choice with
  | start row event => exact preflight_kept spec state after row event kept stepped
  | candidates count budget =>
      cases kept with
      | idle free tallied =>
          rw [joinStep, stepCandidates, requireCurrent, free] at stepped
          cases stepped
      | scanning current progress entries done rest pending counting continued =>
          exact candidates_kept spec state after current progress entries done rest pending count budget counting continued stepped
      | scanned current progress entries done counting continued =>
          have loaded : requireCurrent state = .ok (current, progress) :=
            required state current progress _ counting.here continued rfl
          rw [joinStep, stepCandidates] at stepped
          simp only [loaded, ok_bind, continued] at stepped
          obtain ⟨plan, planned, _⟩ := bind_ok_iff.mp stepped
          unfold planActions at planned
          obtain ⟨_, _, planned⟩ := bind_ok_iff.mp planned
          cases planned
  | finalize budget =>
      cases kept with
      | idle free tallied =>
          rw [joinStep, stepFinalize, requireCurrent, free] at stepped
          cases stepped
      | scanning current progress entries done rest pending counting continued =>
          have loaded : requireCurrent state = .ok (current, progress) :=
            required state current progress _ counting.here continued (by cases pending <;> rfl)
          rw [joinStep, stepFinalize] at stepped
          simp only [loaded, ok_bind, continued] at stepped
          obtain ⟨own, _, stepped⟩ := bind_ok_iff.mp stepped
          obtain ⟨_, stepped⟩ := refuse_bind_ok.mp stepped
          obtain ⟨plan, planned, _⟩ := bind_ok_iff.mp stepped
          unfold planFinalize at planned
          have planned := past_check (past_check planned)
          cases pending <;> cases planned
      | scanned current progress entries done counting continued =>
          exact finalize_kept spec state after current progress entries done budget counting continued stepped

end

end Shiba.Join
