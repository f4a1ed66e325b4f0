import Shiba.Join.Tally

set_option autoImplicit false

namespace Shiba.Join

open Shiba.Execution Weighted

section

variable {Row : Type} [DecidableEq Row] (spec : JoinSpec Row) (consumed : List ((InputSide × Row) × Int))
  (arrangement : InputSide → List (Entry Row)) (nextRowId : InputSide → Int) (outputs : List (OutputRow Row × Int))

variable (side : InputSide) (row : Row) (amount : Int)

def pairRows (entry : Entry Row) : List (OutputRow Row × Int) :=
  if Matches spec side row entry then [(pairOf side row entry.row, amount * entry.multiplicity)] else []

def transitionRows (entry : Entry Row) : List (OutputRow Row × Int) :=
  if Flips spec side row amount entry then
    [(.single side.opposite entry.row, transitionWeight spec side row amount entry)]
  else []

-- What an event adds to the output for one row of the other side.
def effects (entry : Entry Row) : List (OutputRow Row × Int) :=
  pairRows spec side row amount entry ++ transitionRows spec side row amount entry

def ownRows (counts : MatchCounts) : List (OutputRow Row × Int) :=
  if currentSideIsEligible spec.mode side counts then [(.single side row, amount)] else []

theorem bag_opposite (one : Row) :
    bagOf (consumed ++ [((side, row), amount)]) side.opposite one = bagOf consumed side.opposite one := by
  rw [bag_after, if_neg fun both => opposite_ne side both.1.symm, Int.add_zero]

def countedOutput (entries : List (Entry Row)) (key : OutputRow Row) : Int :=
  (entries.map fun entry => weight (effects spec side row amount entry) key).sum

variable {arrangement nextRowId outputs}

omit [DecidableEq Row] in
theorem pair_of_inj (mine one other another : Row) :
    pairOf side mine other = pairOf side one another ↔ mine = one ∧ other = another := by
  cases side <;> simp [pairOf, and_comm]

omit [DecidableEq Row] in
theorem pair_ne_single (mine other one : Row) (kept : InputSide) : pairOf side mine other ≠ .single kept one := by
  cases side <;> exact fun same => by cases same

omit [DecidableEq Row] in
theorem output_cases (key : OutputRow Row) : (∃ mine other, key = pairOf side mine other) ∨
    (∃ one, key = .single side one) ∨ ∃ one, key = .single side.opposite one := by
  cases key with
  | pair left right =>
      apply Or.inl
      cases side with
      | left => exact ⟨left, right, rfl⟩
      | right => exact ⟨right, left, rfl⟩
  | single kept one =>
      apply Or.inr
      cases side <;> cases kept <;> simp [InputSide.opposite]

theorem effects_pair (entry : Entry Row) (mine other : Row) :
    weight (effects spec side row amount entry) (pairOf side mine other) =
      if Matches spec side row entry ∧ row = mine ∧ entry.row = other then amount * entry.multiplicity else 0 := by
  have silent : weight (transitionRows spec side row amount entry) (pairOf side mine other) = 0 := by
    unfold transitionRows
    split
    · rw [weight_single, if_neg (pair_ne_single side mine other entry.row side.opposite).symm]
    · rfl
  rw [effects, weight_append, silent, Int.add_zero, pairRows]
  by_cases hit : Matches spec side row entry
  · rw [if_pos hit, weight_single]
    by_cases same : row = mine ∧ entry.row = other
    · rw [if_pos ((pair_of_inj side row mine entry.row other).mpr same), if_pos ⟨hit, same⟩]
    · rw [if_neg fun equal => same ((pair_of_inj side row mine entry.row other).mp equal), if_neg fun all => same all.2]
  · rw [if_neg hit, if_neg fun all => hit all.1]
    rfl

theorem effects_single (entry : Entry Row) (kept : InputSide) (one : Row) :
    weight (effects spec side row amount entry) (.single kept one) =
      if Flips spec side row amount entry ∧ side.opposite = kept ∧ entry.row = one then
        transitionWeight spec side row amount entry
      else 0 := by
  have silent : weight (pairRows spec side row amount entry) (.single kept one) = 0 := by
    unfold pairRows
    split
    · rw [weight_single, if_neg (pair_ne_single side row entry.row one kept)]
    · rfl
  rw [effects, weight_append, silent, Int.zero_add, transitionRows]
  by_cases flips : Flips spec side row amount entry
  · rw [if_pos flips, weight_single]
    by_cases same : side.opposite = kept ∧ entry.row = one
    · rw [if_pos (by rw [same.1, same.2]), if_pos ⟨flips, same⟩]
    · rw [if_neg fun equal => same (OutputRow.single.inj equal), if_neg fun all => same all.2]
  · rw [if_neg flips, if_neg fun all => flips all.1]
    rfl

omit [DecidableEq Row] in
theorem sql_join_pair (mode : JoinMode) (condition : Row → Row → MatchTruth) (bag : Bag Row) (mine other : Row) :
    sqlJoin mode condition bag (pairOf side mine other) =
      if emitsPairs mode = true ∧ truthOf condition side mine other = .true then bag side mine * bag side.opposite other
      else 0 := by
  cases side with
  | left => rfl
  | right =>
      rw [pairOf, sqlJoin, Int.mul_comm]
      rfl

omit [DecidableEq Row] in
theorem kept_congr (mode : JoinMode) (condition : Row → Row → MatchTruth) {first second : Bag Row} {kept : InputSide}
    (one : Row) (same : ∀ other, first kept.opposite other = second kept.opposite other) :
    KeptSingle mode condition first kept one ↔ KeptSingle mode condition second kept one := by
  have meets : ∀ truth, Meets condition first kept one truth ↔ Meets condition second kept one truth := by
    intro truth
    unfold Meets
    simp only [same]
  unfold KeptSingle
  cases mode <;> cases kept <;> simp only [meets]

theorem own_rows_weight (counts : MatchCounts) (key : OutputRow Row) : weight (ownRows spec side row amount counts) key =
    if currentSideIsEligible spec.mode side counts = true ∧ key = .single side row then amount else 0 := by
  unfold ownRows
  by_cases eligible : currentSideIsEligible spec.mode side counts = true
  · rw [if_pos eligible, weight_single]
    simp only [eligible, true_and, eq_comm]
  · rw [if_neg eligible, if_neg fun both => eligible both.1]
    rfl

section

variable (settled : Settled spec consumed arrangement nextRowId outputs)

include settled

-- A sum of effects is the effect of the one row that has a part in it.
theorem output_of_one (key : OutputRow Row) (entry : Entry Row) (member : entry ∈ arrangement side.opposite)
    (others : ∀ other ∈ arrangement side.opposite, other.row ≠ entry.row →
      weight (effects spec side row amount other) key = 0) :
    countedOutput spec side row amount (arrangement side.opposite) key =
      weight (effects spec side row amount entry) key := by
  have distinct := settled.distinct side.opposite
  apply sum_of_one _ _ entry member distinct.of_map
  intro other inside different
  apply others other inside
  intro same
  exact different (List.inj_on_of_nodup_map distinct inside member same)

theorem pairs_after (mine other : Row) :
    sqlJoin spec.mode spec.condition (bagOf (consumed ++ [((side, row), amount)])) (pairOf side mine other) =
      sqlJoin spec.mode spec.condition (bagOf consumed) (pairOf side mine other) +
        countedOutput spec side row amount (arrangement side.opposite) (pairOf side mine other) := by
  rw [sql_join_pair, sql_join_pair, bag_opposite, bag_after]
  by_cases found : ∃ entry ∈ arrangement side.opposite, entry.row = other
  · obtain ⟨entry, member, rfl⟩ := found
    have counted := (settled.stored side.opposite entry member).1
    rw [output_of_one spec consumed side row amount settled _ entry member, effects_pair, counted]
    · unfold Matches Entry.truth
      by_cases own : row = mine
      · subst own
        simp only [and_true, if_true]
        by_cases hit : emitsPairs spec.mode = true ∧ truthOf spec.condition side row entry.row = .true
        · rw [if_pos hit, if_pos hit, if_pos hit.symm, Int.add_mul]
        · rw [if_neg hit, if_neg hit, if_neg fun both => hit both.symm]
          rfl
      · simp [own]
    · intro another _ different
      rw [effects_pair, if_neg fun all => different all.2.2]
  · have empty : bagOf consumed side.opposite other = 0 := by
      by_contra nonzero
      exact found (settled.present side.opposite other nonzero)
    have silent : countedOutput spec side row amount (arrangement side.opposite) (pairOf side mine other) = 0 := by
      apply sum_of_none
      intro entry member
      rw [effects_pair, if_neg fun all => found ⟨entry, member, all.2.2⟩]
    rw [silent, empty]
    simp

-- The rows of the event's own side keep their matches.
theorem own_singles_after (counts : MatchCounts) (counted : Counted spec consumed side row counts) (one : Row) :
    sqlJoin spec.mode spec.condition (bagOf (consumed ++ [((side, row), amount)])) (.single side one) =
      sqlJoin spec.mode spec.condition (bagOf consumed) (.single side one) +
        countedOutput spec side row amount (arrangement side.opposite) (.single side one) +
        weight (ownRows spec side row amount counts) (.single side one) := by
  have silent : countedOutput spec side row amount (arrangement side.opposite) (.single side one) = 0 := by
    apply sum_of_none
    intro entry _
    rw [effects_single, if_neg fun all => opposite_ne side all.2.1]
  have same := kept_congr spec.mode spec.condition one (bag_opposite consumed side row amount)
  have eligible := kept_iff spec consumed settled.natural counted
  rw [silent, Int.add_zero, own_rows_weight, sqlJoin, sqlJoin, bag_after]
  by_cases kept : KeptSingle spec.mode spec.condition (bagOf consumed) side one
  · rw [if_pos (same.mpr kept), if_pos kept]
    by_cases own : row = one
    · subst own
      rw [if_pos ⟨rfl, rfl⟩, if_pos ⟨eligible.mp kept, rfl⟩]
    · rw [if_neg fun both => own both.2, if_neg fun both => own (OutputRow.single.inj both.2).2.symm]
  · rw [if_neg fun later => kept (same.mp later), if_neg kept]
    by_cases own : row = one
    · subst own
      rw [if_neg fun both => kept (eligible.mpr both.1)]
      rfl
    · rw [if_neg fun both => own (OutputRow.single.inj both.2).2.symm]
      rfl

theorem singles_after (natural : ∀ place one, 0 ≤ bagOf (consumed ++ [((side, row), amount)]) place one)
    (meetable : ∀ entry ∈ arrangement side.opposite, Meetable spec side row amount entry) (one : Row) :
    sqlJoin spec.mode spec.condition (bagOf (consumed ++ [((side, row), amount)])) (.single side.opposite one) =
      sqlJoin spec.mode spec.condition (bagOf consumed) (.single side.opposite one) +
        countedOutput spec side row amount (arrangement side.opposite) (.single side.opposite one) := by
  rw [sqlJoin, sqlJoin, bag_opposite]
  by_cases found : ∃ entry ∈ arrangement side.opposite, entry.row = one
  · obtain ⟨entry, member, rfl⟩ := found
    have counted := settled.counted side.opposite entry member
    have shifted := counted_shifted spec consumed counted (meetable entry member)
    have before := kept_iff spec consumed settled.natural counted
    have after := kept_iff spec (consumed ++ [((side, row), amount)]) natural shifted
    have stored := (settled.stored side.opposite entry member).1
    rw [output_of_one spec consumed side row amount settled _ entry member, effects_single]
    · simp only [before, after, eligible_split, ← stored, and_true]
      unfold Flips transitionWeight
      cases candidateSideIsOutput spec.mode side.opposite <;>
        cases candidateEligible spec.mode entry.counts <;>
        cases candidateEligible spec.mode (entry.shifted spec side row amount) <;> simp
    · intro other _ different
      rw [effects_single, if_neg fun all => different all.2.2]
  · have empty : bagOf consumed side.opposite one = 0 := by
      by_contra nonzero
      exact found (settled.present side.opposite one nonzero)
    have silent : countedOutput spec side row amount (arrangement side.opposite) (.single side.opposite one) = 0 := by
      apply sum_of_none
      intro entry member
      rw [effects_single, if_neg fun all => found ⟨entry, member, all.2.2⟩]
    rw [silent, empty]
    simp

-- What the SQL join gains with an event is what the candidates and the own row emit.
theorem join_after (counts : MatchCounts) (counted : Counted spec consumed side row counts)
    (natural : ∀ place one, 0 ≤ bagOf (consumed ++ [((side, row), amount)]) place one)
    (meetable : ∀ entry ∈ arrangement side.opposite, Meetable spec side row amount entry) (key : OutputRow Row) :
    sqlJoin spec.mode spec.condition (bagOf (consumed ++ [((side, row), amount)])) key =
      sqlJoin spec.mode spec.condition (bagOf consumed) key +
        countedOutput spec side row amount (arrangement side.opposite) key +
        weight (ownRows spec side row amount counts) key := by
  rcases output_cases side key with ⟨mine, other, rfl⟩ | ⟨one, rfl⟩ | ⟨one, rfl⟩
  · rw [pairs_after spec consumed side row amount settled, own_rows_weight,
      if_neg fun both => pair_ne_single side mine other row side both.2, Int.add_zero]
  · exact own_singles_after spec consumed side row amount settled counts counted one
  · have apart : ¬ (OutputRow.single side.opposite one = .single side row) := by
      simp
    rw [singles_after spec consumed side row amount settled natural meetable, own_rows_weight,
      if_neg fun both => apart both.2, Int.add_zero]

end

end

end Shiba.Join
