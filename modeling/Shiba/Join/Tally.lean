import Shiba.Join.Scan

set_option autoImplicit false

namespace Shiba.Join

open Shiba.Execution Weighted

section

variable {Row : Type} (spec : JoinSpec Row) (consumed : List ((InputSide × Row) × Int))

-- How many rows of the other side make the condition what `truth` says.
def meeting (side : InputSide) (row : Row) (truth : MatchTruth) : Int :=
  total consumed fun item => decide (item.1 = side.opposite) && decide (truthOf spec.condition side row item.2 = truth)

structure Counted (side : InputSide) (row : Row) (counts : MatchCounts) : Prop where
  matched : (counts.matched : Int) = meeting spec consumed side row .true
  unknown : (counts.unknown : Int) = meeting spec consumed side row .unknown
  fit : counts.Fit

theorem meeting_after (side other : InputSide) (row one : Row) (amount : Int) (truth : MatchTruth) :
    meeting spec (consumed ++ [((side, row), amount)]) other one truth = meeting spec consumed other one truth +
      if side = other.opposite ∧ truthOf spec.condition other one row = truth then amount else 0 := by
  unfold meeting
  rw [total_append, total_cons, total_nil]
  simp only [Int.add_zero, Bool.and_eq_true, decide_eq_true_eq]

-- The counts of a row of the other side after the event.
theorem counted_shifted {side : InputSide} {row : Row} {amount : Int} {entry : Entry Row}
    (counted : Counted spec consumed side.opposite entry.row entry.counts)
    (meetable : Meetable spec side row amount entry) :
    Counted spec (consumed ++ [((side, row), amount)]) side.opposite entry.row (entry.shifted spec side row amount) := by
  have known := truth_of_opposite spec.condition side entry.row row
  have fit := shifted_fit spec side row entry meetable
  have matched := counted.matched
  have unknown := counted.unknown
  have natural := meetable.matchedNatural
  have unknownNatural := meetable.unknownNatural
  unfold Entry.truth at natural unknownNatural
  refine ⟨?_, ?_, fit⟩
  · rw [meeting_after, known, opposite_opposite, ← matched]
    unfold Entry.shifted countsAfter Entry.truth
    cases truth : truthOf spec.condition side row entry.row with
    | false => simp
    | true =>
        have enough := natural truth
        simp only [and_self, if_pos]
        omega
    | unknown => simp
  · rw [meeting_after, known, opposite_opposite, ← unknown]
    unfold Entry.shifted countsAfter Entry.truth
    cases truth : truthOf spec.condition side row entry.row with
    | false => simp
    | true => simp
    | unknown =>
        have enough := unknownNatural truth
        simp only [and_self, if_pos]
        omega

-- An event does not meet the rows of its own side.
theorem counted_own (side : InputSide) (row one : Row) (amount : Int) (counts : MatchCounts)
    (counted : Counted spec consumed side one counts) :
    Counted spec (consumed ++ [((side, row), amount)]) side one counts := by
  have apart : ∀ truth, meeting spec (consumed ++ [((side, row), amount)]) side one truth =
      meeting spec consumed side one truth := by
    intro truth
    rw [meeting_after, if_neg fun both => opposite_ne side both.1.symm, Int.add_zero]
  refine ⟨?_, ?_, counted.fit⟩
  · rw [apart]
    exact counted.matched
  · rw [apart]
    exact counted.unknown

variable [DecidableEq Row]

-- Between two rows: the arrangements are the bags with their match counts, and
-- the output is the SQL join.
structure Settled (arrangement : InputSide → List (Entry Row)) (nextRowId : InputSide → Int)
    (outputs : List (OutputRow Row × Int)) : Prop where
  ordered : ∀ side, Behind none (arrangement side)
  fresh : ∀ side, 0 < nextRowId side
  identified : ∀ side, ∀ entry ∈ arrangement side, 0 < entry.rowId ∧ entry.rowId < nextRowId side
  distinct : ∀ side, ((arrangement side).map Entry.row).Nodup
  natural : ∀ side row, 0 ≤ bagOf consumed side row
  stored : ∀ side, ∀ entry ∈ arrangement side,
    (entry.multiplicity : Int) = bagOf consumed side entry.row ∧ 0 < entry.multiplicity ∧ entry.multiplicity ≤ bigintMax
  present : ∀ side row, bagOf consumed side row ≠ 0 → ∃ entry ∈ arrangement side, entry.row = row
  counted : ∀ side, ∀ entry ∈ arrangement side, Counted spec consumed side entry.row entry.counts
  joined : ∀ key, weight outputs key = sqlJoin spec.mode spec.condition (bagOf consumed) key

theorem settled_start : Settled spec [] (fun _ => []) (fun _ => 1) [] where
  ordered _ := trivial
  fresh _ := by decide
  identified _ _ member := by cases member
  distinct _ := List.nodup_nil
  natural _ _ := Int.le_refl 0
  stored _ _ member := by cases member
  present _ _ nonzero := absurd rfl nonzero
  counted _ _ member := by cases member
  joined key := by
    cases key with
    | pair left right =>
        rw [sqlJoin]
        split <;> rfl
    | single side row =>
        rw [sqlJoin]
        split <;> rfl

theorem bag_after (side other : InputSide) (row one : Row) (amount : Int) :
    bagOf (consumed ++ [((side, row), amount)]) other one =
      bagOf consumed other one + if side = other ∧ row = one then amount else 0 := by
  unfold bagOf
  rw [weight_append, weight_single]
  simp only [Prod.mk.injEq]

section

variable (natural : ∀ side row, 0 ≤ bagOf consumed side row)

include natural

theorem meets_iff (side : InputSide) (row : Row) (truth : MatchTruth) :
    Meets spec.condition (bagOf consumed) side row truth ↔ 0 < meeting spec consumed side row truth := by
  have found := total_pos_iff consumed (fun item => natural item.1 item.2) fun item =>
    decide (item.1 = side.opposite) && decide (truthOf spec.condition side row item.2 = truth)
  unfold meeting
  rw [found]
  constructor
  · rintro ⟨other, known, inside⟩
    exact ⟨(side.opposite, other), by simp [known], inside⟩
  · rintro ⟨⟨place, other⟩, chosen, inside⟩
    simp only [Bool.and_eq_true, decide_eq_true_eq] at chosen
    obtain ⟨rfl, known⟩ := chosen
    exact ⟨other, known, inside⟩

-- The rows of one kind cannot be fewer than those of one of them.
theorem bag_le_meeting (side : InputSide) (row other : Row) :
    bagOf consumed side.opposite other ≤ meeting spec consumed side row (truthOf spec.condition side row other) := by
  apply weight_le_total consumed (fun item => natural item.1 item.2)
  simp

theorem kept_iff {side : InputSide} {row : Row} {counts : MatchCounts} (counted : Counted spec consumed side row counts) :
    KeptSingle spec.mode spec.condition (bagOf consumed) side row ↔ currentSideIsEligible spec.mode side counts = true := by
  have matched : Meets spec.condition (bagOf consumed) side row .true ↔ 0 < counts.matched := by
    rw [meets_iff spec consumed natural, ← counted.matched]
    omega
  have unknown : Meets spec.condition (bagOf consumed) side row .unknown ↔ 0 < counts.unknown := by
    rw [meets_iff spec consumed natural, ← counted.unknown]
    omega
  unfold KeptSingle currentSideIsEligible
  cases spec.mode <;> cases side <;> simp [matched, unknown]

end

theorem eligible_split (mode : JoinMode) (side : InputSide) (counts : MatchCounts) :
    currentSideIsEligible mode side counts = (candidateSideIsOutput mode side && candidateEligible mode counts) := by
  cases mode <;> cases side <;> simp [currentSideIsEligible, candidateSideIsOutput, candidateEligible]

end

section

variable {Row : Type}

-- The rows of an arrangement as a bag of the two inputs.
def sided (side : InputSide) (entries : List (Entry Row)) : List ((InputSide × Row) × Int) :=
  entries.map fun entry => ((side, entry.row), (entry.multiplicity : Int))

theorem total_sided (side : InputSide) (entries : List (Entry Row)) (chosen : InputSide × Row → Bool) :
    total (sided side entries) chosen =
      (entries.map fun entry => if chosen (side, entry.row) then (entry.multiplicity : Int) else 0).sum := by
  simp only [total, sided, List.map_map]
  rfl

theorem gathered_total (spec : JoinSpec Row) (side : InputSide) (row : Row) (truth : MatchTruth) (entries : List (Entry Row)) :
    (gathered spec side row truth entries : Int) = total (sided side.opposite entries) fun item =>
      decide (item.1 = side.opposite) && decide (truthOf spec.condition side row item.2 = truth) := by
  induction entries with
  | nil => rfl
  | cons entry entries ih =>
      have cut : sided side.opposite (entry :: entries) =
        ((side.opposite, entry.row), (entry.multiplicity : Int)) :: sided side.opposite entries := rfl
      rw [gathered_cons, cut, total_cons, ← ih]
      simp

-- The rows of one input as events of the run.
def eventsOf (side : InputSide) (items : List (Row × Int)) : List ((InputSide × Row) × Int) :=
  items.map fun item => ((side, item.1), item.2)

theorem total_events (side : InputSide) (items : List (Row × Int)) (chosen : InputSide × Row → Bool) :
    total (eventsOf side items) chosen = total items fun row => chosen (side, row) := by
  simp only [total, eventsOf, List.map_map]
  rfl

section

variable (spec : JoinSpec Row) (consumed : List ((InputSide × Row) × Int)) (side : InputSide) (items : List (Row × Int))
  (row : Row) (truth : MatchTruth)

theorem meeting_events_own :
    meeting spec (consumed ++ eventsOf side items) side row truth = meeting spec consumed side row truth := by
  have apart : total (eventsOf side items) (fun item =>
      decide (item.1 = side.opposite) && decide (truthOf spec.condition side row item.2 = truth)) = 0 := by
    rw [total_events]
    apply sum_of_none
    intro item _
    simp [(opposite_ne side).symm]
  unfold meeting
  rw [total_append, apart, Int.add_zero]

theorem meeting_events_opposite : meeting spec (consumed ++ eventsOf side items) side.opposite row truth =
    meeting spec consumed side.opposite row truth +
      total items fun one => decide (truthOf spec.condition side one row = truth) := by
  unfold meeting
  rw [total_append, total_events]
  simp only [opposite_opposite, decide_true, Bool.true_and, truth_of_opposite]

end

end

section

variable {Row : Type} [DecidableEq Row]

section

variable (consumed : List ((InputSide × Row) × Int)) (side : InputSide) (items : List (Row × Int))

theorem weight_sided_apart (other : InputSide) (row : Row) (entries : List (Entry Row))
    (apart : ∀ entry ∈ entries, (side, entry.row) ≠ (other, row)) : weight (sided side entries) (other, row) = 0 := by
  rw [weight, total_sided]
  apply sum_of_none
  intro entry member
  exact if_neg (by simpa using apart entry member)

theorem weight_sided (entries : List (Entry Row)) (entry : Entry Row) (member : entry ∈ entries)
    (distinct : (entries.map Entry.row).Nodup) : weight (sided side entries) (side, entry.row) = entry.multiplicity := by
  have nodup := distinct.of_map
  rw [weight, total_sided]
  rw [sum_of_one entries _ entry member nodup]
  · exact if_pos (decide_eq_true rfl)
  · intro other inside different
    apply if_neg
    intro same
    have rows : other.row = entry.row := (Prod.mk.inj (of_decide_eq_true same)).2
    exact different (List.inj_on_of_nodup_map distinct inside member rows)

theorem bag_events_own (row : Row) :
    bagOf (consumed ++ eventsOf side items) side row = bagOf consumed side row + weight items row := by
  have mine : weight (eventsOf side items) (side, row) = weight items row := by
    rw [weight, total_events]
    simp only [Prod.mk.injEq, true_and]
    rfl
  unfold bagOf
  rw [weight_append, mine]

theorem bag_events_opposite (row : Row) :
    bagOf (consumed ++ eventsOf side items) side.opposite row = bagOf consumed side.opposite row := by
  have apart : weight (eventsOf side items) (side.opposite, row) = 0 := by
    rw [weight, total_events]
    apply sum_of_none
    intro item _
    simp [(opposite_ne side).symm]
  unfold bagOf
  rw [weight_append, apart, Int.add_zero]

end

variable (spec : JoinSpec Row) (consumed : List ((InputSide × Row) × Int))

-- The counts of a row are the rows of the other side that it meets.
structure Tally (side : InputSide) (row : Row) (counts : MatchCounts) : Prop where
  matched : (counts.matched : Int) = meeting spec consumed side row .true
  unknown : (counts.unknown : Int) = meeting spec consumed side row .unknown

omit [DecidableEq Row] in
theorem tally_unique {consumed : List ((InputSide × Row) × Int)} {side : InputSide} {row : Row} {first second : MatchCounts}
    (one : Tally spec consumed side row first) (other : Tally spec consumed side row second) : first = second := by
  have matched : first.matched = second.matched := by
    have same := one.matched.trans other.matched.symm
    omega
  have unknown : first.unknown = second.unknown := by
    have same := one.unknown.trans other.unknown.symm
    omega
  cases first
  cases second
  simp only at matched unknown
  rw [matched, unknown]

-- The arrangements are the bags with their match counts, and hold no empty row.
structure Tallied (arrangement : InputSide → List (Entry Row)) (nextRowId : InputSide → Int) : Prop where
  ordered : ∀ side, Behind none (arrangement side)
  fresh : ∀ side, 0 < nextRowId side
  identified : ∀ side, ∀ entry ∈ arrangement side, 0 < entry.rowId ∧ entry.rowId < nextRowId side
  distinct : ∀ side, ((arrangement side).map Entry.row).Nodup
  natural : ∀ side row, 0 ≤ bagOf consumed side row
  stored : ∀ side, ∀ entry ∈ arrangement side, (entry.multiplicity : Int) = bagOf consumed side entry.row ∧ 0 < entry.multiplicity
  present : ∀ side row, bagOf consumed side row ≠ 0 → ∃ entry ∈ arrangement side, entry.row = row
  tallied : ∀ side, ∀ entry ∈ arrangement side, Tally spec consumed side entry.row entry.counts

theorem Settled.tallied {arrangement : InputSide → List (Entry Row)} {nextRowId : InputSide → Int}
    {outputs : List (OutputRow Row × Int)} (settled : Settled spec consumed arrangement nextRowId outputs) :
    Tallied spec consumed arrangement nextRowId where
  ordered := settled.ordered
  fresh := settled.fresh
  identified := settled.identified
  distinct := settled.distinct
  natural := settled.natural
  stored side entry member := ⟨(settled.stored side entry member).1, (settled.stored side entry member).2.1⟩
  present := settled.present
  tallied side entry member := ⟨(settled.counted side entry member).matched, (settled.counted side entry member).unknown⟩

section

variable (arrangement : InputSide → List (Entry Row)) (nextRowId : InputSide → Int)
  (tallied : Tallied spec consumed arrangement nextRowId) (side : InputSide) (row : Row)

include tallied

theorem inventory_weight : weight (sided side (arrangement side)) (side, row) = bagOf consumed side row := by
  by_cases found : ∃ entry ∈ arrangement side, entry.row = row
  · obtain ⟨entry, member, rfl⟩ := found
    rw [weight_sided side _ entry member (tallied.distinct side), (tallied.stored side entry member).1]
  · have empty : bagOf consumed side row = 0 := by
      by_contra nonzero
      exact found (tallied.present side row nonzero)
    rw [empty]
    apply weight_sided_apart
    intro entry member same
    exact found ⟨entry, member, (Prod.mk.inj same).2⟩

-- The multiplicities along an arrangement add up to the rows of the bag.
theorem gathered_meeting (truth : MatchTruth) :
    (gathered spec side row truth (arrangement side.opposite) : Int) = meeting spec consumed side row truth := by
  have across : ∀ item, weight (sided side.opposite (arrangement side.opposite) ++ sided side (arrangement side)) item =
      weight consumed item := by
    rintro ⟨other, one⟩
    rw [weight_append]
    by_cases own : other = side
    · subst own
      rw [weight_sided_apart, inventory_weight spec consumed arrangement nextRowId tallied, Int.zero_add]
      · rfl
      · exact fun _ _ same => opposite_ne other (Prod.mk.inj same).1
    · have far : other = side.opposite := by cases other <;> cases side <;> simp_all [InputSide.opposite]
      subst far
      rw [inventory_weight spec consumed arrangement nextRowId tallied, weight_sided_apart, Int.add_zero]
      · rfl
      · exact fun _ _ same => own (Prod.mk.inj same).1.symm
  have mine : total (sided side (arrangement side)) (fun item =>
      decide (item.1 = side.opposite) && decide (truthOf spec.condition side row item.2 = truth)) = 0 := by
    rw [total_sided]
    apply sum_of_none
    intro entry _
    simp [(opposite_ne side).symm]
  unfold meeting
  rw [← total_congr _ _ across, total_append, mine, Int.add_zero, gathered_total]

end

end

end Shiba.Join
