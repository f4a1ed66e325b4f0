import Shiba.Join.Steps

set_option autoImplicit false

namespace Shiba.Join

open Shiba.Execution Weighted

section

variable {Row : Type} (spec : JoinSpec Row)

variable (event : InputEventFacts) (row : Row) (budget : WorkBudget) (progress : InputProgress)

theorem finalize_usage (output : Option OutputAction) (budget : WorkBudget) :
    (finalizeUsage progress output).validate budget = .ok () := by
  have input := budget.inputRowsPositive
  have rows := budget.outputRowsPositive
  apply usage_ok
  · exact input
  · exact Or.inr rfl
  · cases output with
    | none => exact Nat.zero_le _
    | some action => exact rows
  · cases output with
    | none => exact Or.inl (Nat.zero_le _)
    | some action => exact Or.inr rfl

theorem current_output_valid (rowBytes : Nat) (weighed : progress.eventWeight ≠ 0) (measured : rowBytes ≠ 0) :
    validateAll OutputAction.validate (currentOutput spec.mode progress rowBytes).toList = .ok () := by
  apply validate_all_ok
  intro action member
  unfold currentOutput at member
  split at member
  · rw [List.mem_singleton.mp member, OutputAction.validate, refuse_false (decide_eq_false weighed), ok_bind,
      refuse_false (decide_eq_false measured), ok_bind]
    rfl
  · cases member

def ownChangeOf (progress : InputProgress) (kind : OwnStateChangeKind) : OwnStateChange :=
  { kind := kind, expectedRowId := progress.expectedOwn.rowId, expectedMultiplicity := progress.expectedOwn.multiplicity
    newMultiplicity := (progress.expectedOwn.multiplicity + progress.eventWeight).toNat, counts := progress.oppositeCounts }

def ownBytes (event : InputEventFacts) (row : Row) (counts : MatchCounts) : Nat :=
  if currentSideIsEligible spec.mode event.side counts then spec.singleBytes event.side row else 1

theorem own_bytes_measured (counts : MatchCounts) : ownBytes spec event row counts ≠ 0 := by
  have positive := (spec.singleMeasured event.side row).1
  unfold ownBytes
  split <;> omega

-- What the finalizer relies on for the row's own state: it is absent, or it counts what the scan has met.
structure OwnSound (own : OwnExpectation) (scanned : MatchCounts) : Prop where
  absent : own.rowId = none → own = {}
  identified : ∀ rowId, own.rowId = some rowId → 0 < rowId
  positive : ∀ rowId, own.rowId = some rowId → 0 < own.multiplicity
  small : own.multiplicity ≤ bigintMax
  counted : ∀ rowId, own.rowId = some rowId → own.counts = scanned
  fit : scanned.Fit

theorem own_probe_ok {own : OwnExpectation} {scanned : MatchCounts} (sound : OwnSound own scanned) :
    (ownProbe spec event.side row scanned own).validate = .ok () ∧
      (ownProbe spec event.side row scanned own).expectation = own ∧
      (ownProbe spec event.side row scanned own).before scanned = .ok (own.rowId, own.multiplicity) ∧
      (ownProbe spec event.side row scanned own).outputBytes = ownBytes spec event row scanned := by
  have measured := own_bytes_measured spec event row scanned
  cases known : own.rowId with
  | none =>
      have probe : ownProbe spec event.side row scanned own = .absent (ownBytes spec event row scanned) := by
        unfold ownProbe
        rw [known]
        rfl
      have empty := sound.absent known
      rw [probe, empty]
      exact ⟨refuse_false (decide_eq_false measured) _, rfl, rfl, rfl⟩
  | some rowId =>
      have probe : ownProbe spec event.side row scanned own =
          .present rowId own.multiplicity own.counts (ownBytes spec event row scanned) := by
        unfold ownProbe
        rw [known]
        rfl
      have counts := sound.counted rowId known
      rw [probe, counts]
      refine ⟨?_, ?_, ?_, rfl⟩
      · simp only [OwnStateProbe.validate, stable_id_ok _ (sound.identified rowId known),
          positive_count_ok _ _ (sound.positive rowId known) sound.small, counts_ok _ sound.fit, ok_bind]
        exact refuse_false (decide_eq_false measured) _
      · rw [OwnStateProbe.expectation, ← known, ← counts]
      · rw [OwnStateProbe.before, refuse_false (decide_eq_false (not_not.mpr rfl)), ok_bind]
        rfl

theorem finalize_planned {event : InputEventFacts} {progress : InputProgress} {kind : OwnStateChangeKind}
    (underway : Underway event progress) (sound : OwnSound progress.expectedOwn progress.oppositeCounts)
    (natural : 0 ≤ progress.expectedOwn.multiplicity + progress.eventWeight)
    (fits : progress.expectedOwn.multiplicity + progress.eventWeight ≤ bigintMax)
    (decided : changeKind progress.expectedOwn.rowId (progress.expectedOwn.multiplicity + progress.eventWeight).toNat =
      .ok kind) :
    ∃ plan, planFinalize spec.mode (.finalize progress) event
        (ownProbe spec event.side row progress.oppositeCounts progress.expectedOwn) budget = .ok plan ∧
      plan.output = currentOutput spec.mode progress (ownBytes spec event row progress.oppositeCounts) ∧
      plan.ownChange = ownChangeOf progress kind := by
  have weighed := (event_parts underway.valid).2.1
  rw [← underway.weighed] at weighed
  have resumed : (JoinContinuation.finalize progress).validateInputResume event = .ok () := underway_resume underway
  have valid := underway_valid event progress underway
  obtain ⟨probed, expectation, before, bytes⟩ := own_probe_ok spec event row sound
  have moved := signed_count_ok "Join own multiplicity" sound.small natural fits
  have emitted := current_output_valid spec progress _ weighed (own_bytes_measured spec event row progress.oppositeCounts)
  have used := finalize_usage progress (currentOutput spec.mode progress (ownBytes spec event row progress.oppositeCounts)) budget
  refine ⟨{
    budget := budget
    usage := finalizeUsage progress (currentOutput spec.mode progress (ownBytes spec event row progress.oppositeCounts))
    output := currentOutput spec.mode progress (ownBytes spec event row progress.oppositeCounts)
    ownChange := ownChangeOf progress kind }, ?_, rfl, rfl⟩
  unfold planFinalize
  simp only [resumed, probed, finalizeProgress, ok_bind]
  change (progress.validate >>= _) = _
  rw [valid, ok_bind, expectation, refuse_false (decide_eq_false (not_not.mpr rfl)), ok_bind]
  simp only [before, bytes, moved, decided, emitted, used, ok_bind]
  rfl

end

section

variable {Row : Type} [DecidableEq Row] (spec : JoinSpec Row)

theorem all_met {state : JoinState Row} {current : Current Row} {progress : InputProgress} {entries : List (Entry Row)}
    {outputs : List (OutputRow Row × Int)} {done : List (Entry Row)}
    (scan : InProgress spec state current progress entries outputs none done []) :
    state.arrangement current.event.side.opposite =
        entries.map (Entry.met spec current.event.side current.row current.event.weight) ∧
      (∀ key, countedOutput spec current.event.side current.row current.event.weight done key =
        countedOutput spec current.event.side current.row current.event.weight entries key) ∧
      Counted spec state.consumed current.event.side current.row progress.oppositeCounts := by
  have split := scan.split
  rw [List.append_nil] at split
  refine ⟨?_, ?_, ?_, ?_, scan.underway.counted⟩
  · rw [scan.shifted]
    exact halfway_met current.event.weight (scan_halfway spec state current progress entries outputs none done [] scan)
  · intro key
    rw [← split, output_probed]
  · have all := gathered_parts spec state current progress entries outputs none done [] scan .true (by decide)
    rw [scan.matched, ← all]
    simp [gathered]
  · have all := gathered_parts spec state current progress entries outputs none done [] scan .unknown (by decide)
    rw [scan.unknown, ← all]
    simp [gathered]

omit [DecidableEq Row] in
theorem counted_unique {consumed : List ((InputSide × Row) × Int)} {side : InputSide} {row : Row} {first second : MatchCounts}
    (one : Counted spec consumed side row first) (other : Counted spec consumed side row second) : first = second :=
  tally_unique spec ⟨one.matched, one.unknown⟩ ⟨other.matched, other.unknown⟩

section

variable (consumed : List ((InputSide × Row) × Int)) (arrangement : InputSide → List (Entry Row)) (nextRowId : InputSide → Int)
  (outputs : List (OutputRow Row × Int)) (settled : Settled spec consumed arrangement nextRowId outputs) (side : InputSide)
  (row : Row) (amount : Int) (natural : 0 ≤ bagOf consumed side row + amount)
  (representable : Representable spec consumed side row amount)

include settled natural representable

-- The event is done: its side has the row's new state, the other side has met it.
theorem settled_next (own : List (Entry Row)) (counts : MatchCounts) (counted : Counted spec consumed side row counts)
    (applied : OwnApplied row (bagOf consumed side row + amount).toNat counts (nextRowId side) (arrangement side) own)
    (later : List (OutputRow Row × Int)) (emitted : ∀ key, weight later key = weight outputs key +
      countedOutput spec side row amount (arrangement side.opposite) key + weight (ownRows spec side row amount counts) key) :
    Settled spec (consumed ++ [((side, row), amount)])
      (setSide (setSide arrangement side.opposite ((arrangement side.opposite).map (Entry.met spec side row amount))) side own)
      (setSide nextRowId side (nextRowId side + 1)) later := by
  have meetable := all_meetable spec consumed arrangement outputs settled row natural representable
  have total : ((bagOf consumed side row + amount).toNat : Int) = bagOf consumed side row + amount := Int.toNat_of_nonneg natural
  have fits := representable.multiplicity
  have far : setSide (setSide arrangement side.opposite ((arrangement side.opposite).map (Entry.met spec side row amount)))
      side own side.opposite = (arrangement side.opposite).map (Entry.met spec side row amount) := by
    rw [set_side_other _ _ _ (opposite_ne side), set_side_same]
  have farIds : setSide nextRowId side (nextRowId side + 1) side.opposite = nextRowId side.opposite :=
    set_side_other _ _ _ (opposite_ne side)
  have both : ∀ holds : InputSide → Prop, holds side → holds side.opposite → ∀ other, holds other := by
    intro holds here there other
    cases side <;> cases other <;> assumption
  have nonneg : ∀ place one, 0 ≤ bagOf (consumed ++ [((side, row), amount)]) place one := by
    intro place one
    rw [bag_after]
    split
    · rename_i same
      rw [← same.1, ← same.2]
      exact natural
    · rw [Int.add_zero]
      exact settled.natural place one
  have unmoved : ∀ one, one ≠ row → bagOf (consumed ++ [((side, row), amount)]) side one = bagOf consumed side one := by
    intro one different
    rw [bag_after, if_neg fun same => different same.2.symm, Int.add_zero]
  have moved : bagOf (consumed ++ [((side, row), amount)]) side row = bagOf consumed side row + amount := by
    rw [bag_after, if_pos ⟨rfl, rfl⟩]
  refine ⟨both _ ?_ ?_, both _ ?_ ?_, both _ ?_ ?_, both _ ?_ ?_, nonneg, both _ ?_ ?_, both _ ?_ ?_, both _ ?_ ?_, ?_⟩
  · rw [set_side_same]
    exact applied.ordered
  · rw [far]
    exact behind_map (Entry.met spec side row amount) (fun _ => rfl) none _ (settled.ordered side.opposite)
  · rw [set_side_same]
    have fresh := settled.fresh side
    omega
  · rw [farIds]
    exact settled.fresh side.opposite
  · rw [set_side_same, set_side_same]
    exact applied.identified
  · rw [far, farIds]
    intro entry member
    obtain ⟨old, inside, rfl⟩ := List.mem_map.mp member
    exact settled.identified side.opposite old inside
  · rw [set_side_same]
    exact applied.distinct
  · rw [far, List.map_map]
    exact settled.distinct side.opposite
  · rw [set_side_same]
    intro entry member
    by_cases mine : entry.row = row
    · obtain ⟨multiplicity, _, positive⟩ := applied.mine entry member mine
      rw [mine, moved, multiplicity]
      exact ⟨total, positive, by omega⟩
    · rw [unmoved entry.row mine]
      exact settled.stored side entry (applied.others entry member mine)
  · rw [far]
    intro entry member
    obtain ⟨old, inside, rfl⟩ := List.mem_map.mp member
    rw [bag_opposite]
    exact settled.stored side.opposite old inside
  · rw [set_side_same]
    intro one nonzero
    by_cases mine : one = row
    · rw [mine, moved] at nonzero
      obtain ⟨entry, member, same⟩ := applied.present (by omega)
      exact ⟨entry, member, same.trans mine.symm⟩
    · rw [unmoved one mine] at nonzero
      obtain ⟨entry, member, rfl⟩ := settled.present side one nonzero
      exact ⟨entry, applied.kept entry member mine, rfl⟩
  · rw [far]
    intro one nonzero
    rw [bag_opposite] at nonzero
    obtain ⟨entry, member, rfl⟩ := settled.present side.opposite one nonzero
    exact ⟨_, List.mem_map_of_mem member, rfl⟩
  · rw [set_side_same]
    intro entry member
    apply counted_own
    by_cases mine : entry.row = row
    · rw [mine, (applied.mine entry member mine).2.1]
      exact counted
    · exact settled.counted side entry (applied.others entry member mine)
  · rw [far]
    intro entry member
    obtain ⟨old, inside, rfl⟩ := List.mem_map.mp member
    exact counted_shifted spec consumed (settled.counted side.opposite old inside) (meetable old inside)
  · intro key
    rw [emitted key, settled.joined key]
    exact (join_after spec consumed side row amount settled counts counted nonneg meetable key).symm

end

omit [DecidableEq Row] in
theorem current_rows (progress : InputProgress) (event : InputEventFacts) (row : Row) (opposite : List (Entry Row))
    (rowBytes : Nat) (sided : progress.side = event.side) (weighed : progress.eventWeight = event.weight) :
    appendActions event.side row opposite (currentOutput spec.mode progress rowBytes).toList =
      .ok (ownRows spec event.side row event.weight progress.oppositeCounts) := by
  unfold currentOutput ownRows
  rw [sided, weighed]
  split <;> rfl

variable {progress : InputProgress} {entries : List (Entry Row)}

theorem own_applied {nextRowId : Int} {row : Row} (behind : Behind none entries) (fresh : 0 < nextRowId)
    (identified : ∀ entry ∈ entries, 0 < entry.rowId ∧ entry.rowId < nextRowId) (distinct : (entries.map Entry.row).Nodup)
    (owned : progress.expectedOwn = expectedOwn entries row) (weighed : progress.eventWeight ≠ 0)
    (natural : 0 ≤ progress.expectedOwn.multiplicity + progress.eventWeight)
    (sound : OwnSound progress.expectedOwn progress.oppositeCounts) :
    ∃ kind after, changeKind progress.expectedOwn.rowId (progress.expectedOwn.multiplicity + progress.eventWeight).toNat =
        .ok kind ∧ applyOwnChange entries nextRowId row (ownChangeOf progress kind) = .ok after ∧
      OwnApplied row (progress.expectedOwn.multiplicity + progress.eventWeight).toNat progress.oppositeCounts nextRowId
        entries after := by
  cases found : ownEntry entries row with
  | none =>
      have absent : progress.expectedOwn = {} := by
        rw [owned, expectedOwn, found]
        rfl
      have empty : progress.expectedOwn.multiplicity = 0 := by rw [absent]
      obtain ⟨after, applied, facts⟩ := own_inserted nextRowId row behind fresh identified distinct
        (ownChangeOf progress .insert) rfl found (by simp only [ownChangeOf]; omega)
      refine ⟨.insert, after, ?_, applied, facts⟩
      have missing : progress.expectedOwn.rowId = none := by rw [absent]
      rw [missing, changeKind, refuse_false (decide_eq_false (by omega)), ok_bind]
      rfl
  | some own =>
      have held : progress.expectedOwn = own.expectation := by
        rw [owned, expectedOwn, found]
        rfl
      have known : progress.expectedOwn.rowId = some own.rowId := by rw [held]; rfl
      have counts : progress.oppositeCounts = own.counts := by
        rw [← sound.counted own.rowId known, held]
        rfl
      have named : ∀ kind, (ownChangeOf progress kind).expectedRowId = some own.rowId ∧
          (ownChangeOf progress kind).expectedMultiplicity = own.multiplicity ∧
          (ownChangeOf progress kind).counts = own.counts := by
        intro kind
        exact ⟨known, by rw [ownChangeOf, held]; rfl, counts⟩
      by_cases empty : (progress.expectedOwn.multiplicity + progress.eventWeight).toNat = 0
      · obtain ⟨after, applied, facts⟩ := own_deleted nextRowId row behind identified distinct own found (named .delete) rfl empty
        refine ⟨.delete, after, ?_, applied, facts⟩
        rw [known, changeKind, if_pos empty]
        rfl
      · obtain ⟨after, applied, facts⟩ := own_updated nextRowId row behind identified distinct own found (named .update) rfl (Nat.pos_of_ne_zero empty)
        refine ⟨.update, after, ?_, applied, facts⟩
        rw [known, changeKind, if_neg empty]
        rfl

theorem finalize_ok {state : JoinState Row} {current : Current Row} {outputs : List (OutputRow Row × Int)}
    {done : List (Entry Row)} (budget : WorkBudget)
    (scan : InProgress spec state current progress entries outputs none done [])
    (continued : current.continuation = .finalize progress) :
    ∃ after, stepFinalize spec state budget = .ok after ∧ after.current = none ∧
      Settled spec after.consumed after.arrangement after.nextRowId after.outputs := by
  obtain ⟨met, emitted, counted⟩ := all_met spec scan
  have settled := scan.settled
  have near : setSide state.arrangement current.event.side.opposite entries current.event.side =
      state.arrangement current.event.side := set_side_other _ _ _ (opposite_ne current.event.side).symm
  have weighed := scan.underway.weighed
  have present := (event_parts scan.underway.valid).2.1
  have ordered := settled.ordered current.event.side
  have identified := settled.identified current.event.side
  have distinct := settled.distinct current.event.side
  obtain ⟨stored, absent, held⟩ := own_known spec state.consumed settled.tallied current.event.side current.row
  have valid := own_valid spec state.consumed _ outputs settled current.row scan.natural scan.representable
  rw [near] at ordered identified distinct stored absent held valid
  rw [← scan.owned] at stored absent held
  have sound : OwnSound progress.expectedOwn progress.oppositeCounts := by
    have entry : ∀ rowId, progress.expectedOwn.rowId = some rowId → ∃ own ∈ state.arrangement current.event.side,
        progress.expectedOwn = own.expectation ∧ own.counts = progress.oppositeCounts := by
      intro rowId known
      obtain ⟨own, _, member, named, same⟩ := held rowId known
      have mine := settled.counted current.event.side own (by rw [near]; exact member)
      rw [named] at mine
      exact ⟨own, member, same, counted_unique spec mine counted⟩
    have facts : ∀ own ∈ state.arrangement current.event.side, _ :=
      fun own member => settled.stored current.event.side own (by rw [near]; exact member)
    refine ⟨fun missing => (absent missing).2, ?_, ?_, ?_, ?_, counted.fit⟩
    · intro rowId known
      obtain ⟨own, member, same, _⟩ := entry rowId known
      rw [same] at known
      rw [← Option.some.inj known]
      exact (identified own member).1
    · intro rowId known
      obtain ⟨own, member, same, _⟩ := entry rowId known
      rw [same]
      exact (facts own member).2.1
    · cases known : progress.expectedOwn.rowId with
      | none =>
          rw [(absent known).2]
          exact Nat.zero_le _
      | some rowId =>
          obtain ⟨own, member, same, _⟩ := entry rowId known
          rw [same]
          exact (facts own member).2.2
    · intro rowId known
      obtain ⟨own, _, same, counts⟩ := entry rowId known
      rw [same]
      exact counts
  have natural : 0 ≤ progress.expectedOwn.multiplicity + progress.eventWeight := by
    rw [stored, weighed]
    exact scan.natural
  have fits : progress.expectedOwn.multiplicity + progress.eventWeight ≤ bigintMax := by
    rw [stored, weighed]
    exact scan.representable.multiplicity
  obtain ⟨kind, own, decided, applied, facts⟩ := own_applied ordered (settled.fresh current.event.side) identified distinct
    scan.owned (by rw [weighed]; exact present) natural sound
  obtain ⟨plan, plans, output, change⟩ := finalize_planned spec current.row budget scan.underway sound natural fits decided
  have rows := current_rows spec progress current.event current.row (state.arrangement current.event.side.opposite)
    (ownBytes spec current.event current.row progress.oppositeCounts) scan.underway.sided weighed
  have loaded : requireCurrent state = .ok (current, progress) :=
    required state current progress _ scan.here continued rfl
  have owns : loadOwnExpectation (state.arrangement current.event.side) current.row current.event.weight =
      .ok progress.expectedOwn := by
    unfold loadOwnExpectation
    rw [scan.owned]
    simp only [valid, ok_bind]
    rfl
  rw [stored, weighed] at facts
  have next := settled_next spec state.consumed _ state.nextRowId outputs settled current.event.side current.row
    current.event.weight scan.natural scan.representable own progress.oppositeCounts counted (by rw [near]; exact facts)
    (state.outputs ++ ownRows spec current.event.side current.row current.event.weight progress.oppositeCounts)
    (by
      intro key
      have before := scan.emitted key
      rw [emitted key] at before
      rw [weight_append, before, set_side_same]
      simp [begunRows])
  rw [set_side_same, ← met, set_side_twice, set_side_self] at next
  refine ⟨{ state with
    arrangement := setSide state.arrangement current.event.side own
    nextRowId := setSide state.nextRowId current.event.side (state.nextRowId current.event.side + 1)
    current := none
    consumed := state.consumed ++ [((current.event.side, current.row), current.event.weight)]
    outputs := state.outputs ++ ownRows spec current.event.side current.row current.event.weight progress.oppositeCounts },
    ?_, rfl, next⟩
  unfold stepFinalize
  simp only [loaded, owns, ok_bind]
  rw [refuse_false (decide_eq_false (not_not.mpr rfl)), ok_bind, continued, plans, ok_bind, output, change]
  simp only [rows, applied, ok_bind]
  rfl

end

end Shiba.Join
