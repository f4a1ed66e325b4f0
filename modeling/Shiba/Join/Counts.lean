import Shiba.Join.PageCounts

set_option autoImplicit false

namespace Shiba.Join

open Shiba.Execution Weighted Transition

section

variable {Row : Type} [DecidableEq Row] (spec : JoinSpec Row)

-- The weight of the event under way, for a row of the other side that its scan has passed.
def metWeight (state : JoinState Row) (side : InputSide) (entry : Entry Row) (truth : MatchTruth) : Int :=
  match state.current with
  | none => 0
  | some current =>
      match current.continuation.inputProgress with
      | none => 0
      | some progress =>
          if current.event.side = side.opposite ∧ entry.rowId ≤ cursor progress ∧
              truthOf spec.condition side entry.row current.row = truth then
            current.event.weight
          else 0

-- Every stored row counts the opposite stored rows that it meets, and the event
-- under way once its scan has passed; no stored row is empty; and the end of an
-- event finds the counts of its own row as it has counted them.
structure CountsRight (state : JoinState Row) : Prop where
  stored : ∀ side, ∀ entry ∈ state.arrangement side, 0 < entry.multiplicity
  matched : ∀ side, ∀ entry ∈ state.arrangement side, (entry.counts.matched : Int) =
    gathered spec side entry.row .true (state.arrangement side.opposite) + metWeight spec state side entry .true
  unknown : ∀ side, ∀ entry ∈ state.arrangement side, (entry.counts.unknown : Int) =
    gathered spec side entry.row .unknown (state.arrangement side.opposite) + metWeight spec state side entry .unknown
  agrees : ∀ current progress, state.current = some current → current.continuation = .finalize progress →
    ∃ before, (ownProbe spec current.event.side current.row progress.oppositeCounts
      (expectedOwn (state.arrangement current.event.side) current.row)).before progress.oppositeCounts = .ok before

omit [DecidableEq Row] in
theorem met_weight_idle (state : JoinState Row) (side : InputSide) (entry : Entry Row) (truth : MatchTruth)
    (free : state.current = none) : metWeight spec state side entry truth = 0 := by
  rw [metWeight, free]

omit [DecidableEq Row] in
theorem met_weight_busy (state : JoinState Row) (current : Current Row) (progress : InputProgress) (side : InputSide)
    (entry : Entry Row) (truth : MatchTruth) (here : state.current = some current)
    (continued : current.continuation.inputProgress = some progress) :
    metWeight spec state side entry truth = if current.event.side = side.opposite ∧ entry.rowId ≤ cursor progress ∧
        truthOf spec.condition side entry.row current.row = truth then current.event.weight else 0 := by
  rw [metWeight, here]
  simp only [continued]

theorem idle_counts (state : JoinState Row) (free : state.current = none)
    (tallied : Tallied spec state.consumed state.arrangement state.nextRowId) : CountsRight spec state where
  stored side entry member := (tallied.stored side entry member).2
  matched side entry member := by
    rw [met_weight_idle spec state side entry .true free, Int.add_zero, (tallied.tallied side entry member).matched]
    exact (gathered_meeting spec state.consumed state.arrangement state.nextRowId tallied side entry.row .true).symm
  unknown side entry member := by
    rw [met_weight_idle spec state side entry .unknown free, Int.add_zero, (tallied.tallied side entry member).unknown]
    exact (gathered_meeting spec state.consumed state.arrangement state.nextRowId tallied side entry.row .unknown).symm
  agrees current progress here := by
    rw [free] at here
    cases here

section

variable (state : JoinState Row) (current : Current Row) (progress : InputProgress) (entries done rest : List (Entry Row))
  (counting : Counting spec state current progress entries done rest)

include counting

-- A row of the other side has its counts from before the event, and the event's weight once it is passed.
theorem passed_counts (entry : Entry Row) (member : entry ∈ entries) (tally : Tally spec state.consumed
      current.event.side.opposite entry.row entry.counts) :
    ((entry.shiftTo spec current.event.side current.row current.event.weight (cursor progress)).counts.matched : Int) =
        meeting spec state.consumed current.event.side.opposite entry.row .true +
          (if entry.rowId ≤ cursor progress ∧ truthOf spec.condition current.event.side current.row entry.row = .true then
            current.event.weight else 0) ∧
      ((entry.shiftTo spec current.event.side current.row current.event.weight (cursor progress)).counts.unknown : Int) =
        meeting spec state.consumed current.event.side.opposite entry.row .unknown +
          if entry.rowId ≤ cursor progress ∧ truthOf spec.condition current.event.side current.row entry.row = .unknown then
            current.event.weight else 0 := by
  unfold Entry.shiftTo
  by_cases passed : entry.rowId ≤ cursor progress
  · have met : spec.probed current.event.side current.row entry.row = true → entry ∈ done := by
      intro seen
      have listed : entry ∈ done ++ rest := by
        rw [← counting.halfway.split]
        exact List.mem_filter.mpr ⟨member, seen⟩
      rcases List.mem_append.mp listed with old | new
      · exact old
      · have stored := halfway_stored rest counting.halfway
        have ahead := ahead_cursor progress rest (fun other inside => counting.halfway.positive other
          (stored other (List.mem_append_right _ inside)).1) counting.halfway.ahead entry new
        omega
    obtain ⟨matched, unknown⟩ := shifted_counts spec
      (counting_movable spec state current progress entries done rest counting entry met)
    rw [if_pos passed, ← tally.matched, ← tally.unknown]
    simp only [matched, unknown, passed, true_and, and_self]
  · rw [if_neg passed, if_neg fun both => passed both.1, if_neg fun both => passed both.1, Int.add_zero, Int.add_zero]
    exact ⟨tally.matched, tally.unknown⟩

theorem busy_counts (continued : current.continuation.inputProgress = some progress)
    (agrees : ∀ finished, current.continuation = .finalize finished →
      ∃ before, (ownProbe spec current.event.side current.row finished.oppositeCounts
        (expectedOwn (state.arrangement current.event.side) current.row)).before finished.oppositeCounts = .ok before) :
    CountsRight spec state := by
  have near : setSide state.arrangement current.event.side.opposite entries current.event.side =
      state.arrangement current.event.side := set_side_other _ _ _ (opposite_ne current.event.side).symm
  have far : setSide state.arrangement current.event.side.opposite entries current.event.side.opposite = entries :=
    set_side_same _ _ _
  have tallied := counting.tallied
  have busy := fun side entry truth => met_weight_busy spec state current progress side entry truth counting.here continued
  have met := fun row truth => gathered_meeting spec state.consumed _ state.nextRowId tallied current.event.side row truth
  have own := fun row truth => gathered_meeting spec state.consumed _ state.nextRowId tallied current.event.side.opposite row truth
  rw [far] at met
  rw [opposite_opposite, near] at own
  have shifted : ∀ row truth, gathered spec current.event.side row truth (entries.map
      (Entry.shiftTo spec current.event.side current.row current.event.weight (cursor progress))) =
        gathered spec current.event.side row truth entries := by
    intro row truth
    unfold gathered
    rw [List.map_map]
    apply congrArg List.sum
    apply List.map_congr_left
    intro entry _
    unfold Entry.shiftTo
    simp only [Function.comp_apply, Entry.truth]
    split <;> rfl
  have both : ∀ holds : InputSide → Prop, holds current.event.side → holds current.event.side.opposite →
      ∀ other, holds other := by
    intro holds here there other
    cases side : current.event.side <;> rw [side] at here there <;> cases other <;> assumption
  have mine := tallied.tallied current.event.side
  have theirs := tallied.tallied current.event.side.opposite
  have sizes := tallied.stored current.event.side
  have otherSizes := tallied.stored current.event.side.opposite
  rw [near] at mine sizes
  rw [far] at theirs otherSizes
  have apart : current.event.side ≠ current.event.side.opposite := (opposite_ne current.event.side).symm
  refine ⟨both _ ?_ ?_, both _ ?_ ?_, both _ ?_ ?_, ?_⟩
  · exact fun entry member => (sizes entry member).2
  · rw [counting.shifted]
    intro entry member
    obtain ⟨old, inside, rfl⟩ := List.mem_map.mp member
    unfold Entry.shiftTo
    split <;> exact (otherSizes old inside).2
  · intro entry member
    rw [busy, if_neg fun all => apart all.1, counting.shifted, shifted, met, Int.add_zero]
    exact (mine entry member).matched
  · rw [counting.shifted]
    intro entry member
    obtain ⟨old, inside, rfl⟩ := List.mem_map.mp member
    rw [busy, opposite_opposite, shift_to_row, shift_to_id, own, truth_of_opposite]
    simp only [true_and]
    exact (passed_counts spec state current progress entries done rest counting old inside (theirs old inside)).1
  · intro entry member
    rw [busy, if_neg fun all => apart all.1, counting.shifted, shifted, met, Int.add_zero]
    exact (mine entry member).unknown
  · rw [counting.shifted]
    intro entry member
    obtain ⟨old, inside, rfl⟩ := List.mem_map.mp member
    rw [busy, opposite_opposite, shift_to_row, shift_to_id, own, truth_of_opposite]
    simp only [true_and]
    exact (passed_counts spec state current progress entries done rest counting old inside (theirs old inside)).2
  · intro held finished here continued
    rw [counting.here] at here
    obtain rfl := Option.some.inj here
    exact agrees finished continued

end

theorem kept_counts (state : JoinState Row) (kept : Kept spec state) : CountsRight spec state := by
  cases kept with
  | idle free tallied => exact idle_counts spec state free tallied
  | scanning current progress entries done rest pending counting continued =>
      apply busy_counts spec state current progress entries done rest counting
      · rw [continued]
        cases pending <;> rfl
      · intro finished ended
        rw [continued] at ended
        exact absurd ended (scan_at_open pending progress finished)
  | scanned current progress entries done counting continued =>
      apply busy_counts spec state current progress entries done [] counting
      · rw [continued]
        rfl
      · intro finished ended
        rw [continued] at ended
        obtain rfl := JoinContinuation.finalize.inj ended
        unfold ownProbe expectedOwn
        cases found : ownEntry (state.arrangement current.event.side) current.row with
        | none => exact ⟨_, rfl⟩
        | some own =>
            obtain ⟨member, named⟩ := own_entry_some found
            have same := counting_agrees spec counting member named
            refine ⟨(some own.rowId, own.multiplicity), ?_⟩
            simp only [Option.map_some, Option.getD_some, Entry.expectation, OwnStateProbe.before]
            rw [refuse_false (decide_eq_false (not_not.mpr same)), ok_bind]
            rfl

end

-- In every run whose pages are clean, the counts are right in every state.
theorem arrangement_counts {Row Value : Type} [DecidableEq Row] (layout : Layout Row Value) (state : JoinState Row)
    (ran : Path (storeStep layout) (Clean layout) {} state) : CountsRight layout.spec state :=
  kept_counts layout.spec state (run_kept layout state ran)

-- Rows of a key and a value, joined on equal keys and a smaller value on the left.
abbrev KeyedRow := Option Nat × Nat

def rowKey : JoinEquiKey KeyedRow Nat where
  left := Prod.fst
  right := Prod.fst
  equal := (· == ·)
  symmetric one other := by
    rw [Bool.eq_iff_iff, beq_iff_eq, beq_iff_eq]
    exact eq_comm

def smaller (left right : KeyedRow) : MatchTruth := if left.2 < right.2 then .true else .false

def keyedSpec : JoinSpec KeyedRow where
  mode := .inner
  condition := keyedCondition [rowKey] smaller
  probed side row other := keyPredicate [rowKey] side row other true
  rowBytes _ _ := 1
  pairBytes _ _ := 1
  singleBytes _ _ := 1
  skipped side row other hidden := unprobed_false [rowKey] smaller side row other hidden
  rowMeasured _ _ := by decide
  pairMeasured _ _ := by decide
  singleMeasured _ _ := by decide

def keyedLayout : Layout KeyedRow Nat where
  spec := keyedSpec
  keys := [rowKey]
  residual := smaller
  conjoined _ _ := rfl
  probes _ _ _ := rfl

def keyedEvent (side : InputSide) (weight : Int) : InputEventFacts where
  side := side
  positions := ⟨⟨1, 1, 0⟩, ⟨1, 1, 0⟩⟩
  weight := weight
  rowBytes := 1

def keyedBudget : WorkBudget := { maxInputRows := 4, maxInputBytes := 4, maxOutputRows := 4, maxOutputBytes := 4 }

def singlePage (side : InputSide) (row : KeyedRow) (weight : Int) : InputPage KeyedRow :=
  { side := side, rows := [(row, weight)], order := [row] }

abbrev mixedRun : List (StoreChoice KeyedRow) :=
  [.page (singlePage .right (some 5, 7) 1) keyedBudget, .page (singlePage .left (some 5, 3) 2) keyedBudget,
   .row (.start (some 5, 4) (keyedEvent .left 1)), .row (.candidates 1 keyedBudget), .row (.finalize keyedBudget)]

def afterStores (choices : List (StoreChoice KeyedRow)) : JoinState KeyedRow :=
  attempts (storeStep keyedLayout) {} choices

theorem single_ready (state : JoinState KeyedRow) (side : InputSide) (row : KeyedRow) (weight : Int)
    (idle : state.current = none)
    (measured : (measureInnerPage keyedLayout (singlePage side row weight) (state.arrangement side.opposite)
      keyedBudget).isSome = true) : PageReady keyedLayout state (singlePage side row weight) keyedBudget where
  idle := idle
  inner := rfl
  measured := measured
  grouped := by
    have one : ([(row, weight)].map Prod.fst).dedup = [row] := List.dedup_eq_self.mpr (List.nodup_singleton row)
    rw [singlePage, one]

theorem mixed_run_path : Path (storeStep keyedLayout) (Clean keyedLayout) {} (afterStores mixedRun) := by
  have known : ∀ side row other, row.1 ≠ none → other.1 ≠ none → ¬ FalselyUnknown keyedLayout side row other := by
    intro side row other first second falsely
    obtain ⟨_, key, member, missing⟩ := (unknown_iff _ side row other).mp falsely.1
    rw [List.mem_singleton.mp member, probe_unknown, JoinEquiKey.missing, Bool.or_eq_true] at missing
    cases side <;> rcases missing with none | none <;> simp_all [rowKey, JoinEquiKey.column, InputSide.opposite]
  have first : Clean keyedLayout {} mixedRun[0] :=
    .page _ keyedBudget (single_ready {} .right (some 5, 7) 1 rfl rfl) fun _ _ _ _ member => by cases member
  have second : Clean keyedLayout (afterStores (mixedRun.take 1)) mixedRun[1] := by
    refine .page _ keyedBudget (single_ready _ .left (some 5, 3) 2 rfl rfl) ?_
    intro row member _ entry inside
    obtain rfl := List.mem_singleton.mp member
    obtain rfl := List.mem_singleton.mp inside
    exact known _ _ _ (by decide) (by decide)
  have third : Clean keyedLayout (afterStores (mixedRun.take 2)) mixedRun[2] := .row _
  have fourth : Clean keyedLayout (afterStores (mixedRun.take 3)) mixedRun[3] := .row _
  have fifth : Clean keyedLayout (afterStores (mixedRun.take 4)) mixedRun[4] := .row _
  exact .next _ _ _ (.next _ _ _ (.next _ _ _ (.next _ _ _ (.next _ _ _ .here first rfl) second rfl) third rfl)
    fourth rfl) fifth rfl

theorem arrangement_counts_mixed : CountsRight keyedSpec (afterStores mixedRun) :=
  arrangement_counts keyedLayout (afterStores mixedRun) mixed_run_path

-- The right row has no key, and its value is not larger.
abbrev unknownRun : List (StoreChoice KeyedRow) :=
  [.page (singlePage .right (none, 1) 1) keyedBudget, .page (singlePage .left (some 5, 9) 1) keyedBudget]

-- The left row then counts it as unknown.
theorem unknown_counted : ¬ ∀ (layout : Layout KeyedRow Nat) (state : JoinState KeyedRow),
    Path (storeStep layout) (Ready layout) {} state → CountsRight layout.spec state := by
  intro all
  have first : Ready keyedLayout {} unknownRun[0] :=
    .page _ keyedBudget (single_ready {} .right (none, 1) 1 rfl rfl)
  have second : Ready keyedLayout (afterStores (unknownRun.take 1)) unknownRun[1] :=
    .page _ keyedBudget (single_ready _ .left (some 5, 9) 1 rfl rfl)
  have right := all keyedLayout (afterStores unknownRun) (.next _ _ _ (.next _ _ _ .here first rfl) second rfl)
  have counted := right.unknown .left ⟨1, (some 5, 9), 1, ⟨0, 1⟩⟩ (List.mem_singleton.mpr rfl)
  exact absurd counted (by decide)

-- The next event of that row is scanned, and cannot end.
example : storeStep keyedLayout (afterStores (unknownRun ++
      [.row (.start (some 5, 9) (keyedEvent .left 1)), .row (.candidates 1 keyedBudget)])) (.row (.finalize keyedBudget)) =
    .error (.failed "Join own arrangement counts differ from the completed scan") := rfl

end Shiba.Join
