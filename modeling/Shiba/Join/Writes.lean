import Shiba.Join.Delta

set_option autoImplicit false

namespace Shiba.Join

open Shiba.Execution Weighted

section

variable {Row : Type}

section

variable (after : Option Int) (entries : List (Entry Row))

theorem behind_all (behind : Behind after entries) (rowId : Int) (known : after = some rowId) :
    ∀ entry ∈ entries, rowId < entry.rowId := by
  induction entries generalizing after rowId with
  | nil => exact fun _ member => by cases member
  | cons first rest ih =>
      have order := behind.1 rowId known
      intro entry member
      rcases List.mem_cons.mp member with rfl | later
      · exact order
      · have further := ih (some first.rowId) behind.2 first.rowId rfl entry later
        omega

theorem behind_map (change : Entry Row → Entry Row) (same : ∀ entry, (change entry).rowId = entry.rowId) (after : Option Int)
    (entries : List (Entry Row)) (behind : Behind after entries) : Behind after (entries.map change) := by
  induction entries generalizing after with
  | nil => trivial
  | cons entry rest ih =>
      rw [List.map_cons]
      constructor
      · rw [same]
        exact behind.1
      · rw [same]
        exact ih (some entry.rowId) behind.2

-- An identifier names one row of an arrangement.
theorem behind_unique (behind : Behind after entries) {one other : Entry Row} (first : one ∈ entries)
    (second : other ∈ entries) (same : one.rowId = other.rowId) :
    one = other := by
  induction entries generalizing after with
  | nil => cases first
  | cons entry rest ih =>
      have later := behind_all (some entry.rowId) rest behind.2 entry.rowId rfl
      rcases List.mem_cons.mp first with rfl | firstLater
      · rcases List.mem_cons.mp second with rfl | secondLater
        · rfl
        · have order := later other secondLater
          omega
      · rcases List.mem_cons.mp second with rfl | secondLater
        · have order := later one firstLater
          omega
        · exact ih (some entry.rowId) behind.2 firstLater secondLater

theorem find_by_id (behind : Behind none entries) (entry : Entry Row) (member : entry ∈ entries) (rowId : Option Int)
    (known : rowId = some entry.rowId) :
    (entries.find? fun other => decide (some other.rowId = rowId)) = some entry := by
  cases found : entries.find? fun other => decide (some other.rowId = rowId) with
  | none =>
      have missing := List.find?_eq_none.mp found entry member
      simp [known] at missing
  | some other =>
      have hit := List.find?_some found
      have same := of_decide_eq_true hit
      rw [known] at same
      rw [behind_unique none entries behind (List.mem_of_find?_eq_some found) member (Option.some.inj same)]

end

variable (spec : JoinSpec Row) (side : InputSide) (row : Row) (amount : Int)

-- The row is still there, whatever its counts are by now.
def Held (opposite : List (Entry Row)) (entry : Entry Row) : Prop :=
  ∃ other ∈ opposite, other.rowId = entry.rowId ∧ other.row = entry.row

section

variable {opposite : List (Entry Row)} (behind : Behind none opposite) {entry : Entry Row}
  (held : Held opposite entry)

include behind held

theorem output_pair : outputRow side row opposite (pairAction spec side row amount entry) =
      some (pairOf side row entry.row, amount * entry.multiplicity) := by
  obtain ⟨other, member, rowId, same⟩ := held
  have found := find_by_id opposite behind other member (pairAction spec side row amount entry).candidateRowId (by rw [rowId]; rfl)
  simp only [outputRow, found, Option.map_some, same]
  rfl

theorem output_transition : outputRow side row opposite (transitionAction spec side row amount entry) =
      some (.single side.opposite entry.row, transitionWeight spec side row amount entry) := by
  obtain ⟨other, member, rowId, same⟩ := held
  have found := find_by_id opposite behind other member (transitionAction spec side row amount entry).candidateRowId (by rw [rowId]; rfl)
  simp only [outputRow, found, Option.map_some, same]
  rfl

end

section

variable {pending : Option CandidateExpectation} (after cut : Int) (entries opposite : List (Entry Row))

theorem candidate_rows (behind : Behind none opposite) (entry : Entry Row) (held : Held opposite entry) :
    (candidateActions spec side row amount entry).filterMap (outputRow side row opposite) = effects spec side row amount entry := by
  have pair := output_pair spec side row amount behind held
  have transition := output_transition spec side row amount behind held
  rw [candidateActions, List.filterMap_append, effects]
  congr 1
  · unfold pairActions pairRows
    split
    · rw [List.filterMap_cons_some pair, List.filterMap_nil]
    · rfl
  · unfold transitionActions transitionRows
    split
    · rw [List.filterMap_cons_some transition, List.filterMap_nil]
    · rfl

theorem candidate_projected (behind : Behind none opposite) (entry : Entry Row) (held : Held opposite entry)
    (action : OutputAction) (member : action ∈ candidateActions spec side row amount entry) :
    (outputRow side row opposite action).isSome = true := by
  rcases List.mem_append.mp member with pair | transition
  · unfold pairActions at pair
    split at pair
    · rw [List.mem_singleton.mp pair, output_pair spec side row amount behind held]
      rfl
    · cases pair
  · unfold transitionActions at transition
    split at transition
    · rw [List.mem_singleton.mp transition, output_transition spec side row amount behind held]
      rfl
    · cases transition

def begunRows (pending : Option CandidateExpectation) (entries : List (Entry Row)) : List (OutputRow Row × Int) :=
  match pending, entries with
  | some _, entry :: _ => [(pairOf side row entry.row, amount * entry.multiplicity)]
  | _, _ => []

theorem begun_rows (pending : Option CandidateExpectation) {entries opposite : List (Entry Row)}
    (behind : Behind none opposite) (held : ∀ entry ∈ entries, Held opposite entry) :
    (begun spec side row amount pending entries).filterMap (outputRow side row opposite) =
      begunRows side row amount pending entries := by
  cases pending with
  | none => rfl
  | some expected =>
      cases entries with
      | nil => rfl
      | cons entry rest =>
          have pair := output_pair spec side row amount behind (held entry List.mem_cons_self)
          rw [begun, begunRows, List.filterMap_cons_some pair, List.filterMap_nil]

theorem begun_projected {entries opposite : List (Entry Row)} (behind : Behind none opposite)
    (held : ∀ entry ∈ entries, Held opposite entry) {action : OutputAction}
    (member : action ∈ begun spec side row amount pending entries) :
    (outputRow side row opposite action).isSome = true := by
  unfold begun at member
  split at member
  · rw [List.mem_singleton.mp member, output_pair spec side row amount behind (held _ List.mem_cons_self)]
    rfl
  · cases member

theorem append_ok (actions : List OutputAction)
    (projected : ∀ action ∈ actions, (outputRow side row opposite action).isSome = true) :
    appendActions side row opposite actions = .ok (actions.filterMap (outputRow side row opposite)) := by
  have length := List.filterMap_length_eq_length.mpr projected
  rw [appendActions]
  simp only [length, ne_eq, not_true_eq_false, decide_false]
  rfl

-- The output of a page is what its rows emit, less the pair that was begun and with the one it begins.
theorem page_appended {progress : InputProgress} {later : Option CandidateExpectation}
    {page done rest opposite : List (Entry Row)} {complete : Bool} {plan : ActionPlan} (behind : Behind none opposite)
    (held : ∀ entry ∈ page, Held opposite entry)
    (planned : Planned spec side row amount progress pending page complete plan later done rest) :
    ∃ rows, appendActions side row opposite plan.actions = .ok rows ∧
      begunRows side row amount pending page ++ rows =
        done.flatMap (effects spec side row amount) ++ begunRows side row amount later rest := by
  have heldDone : ∀ entry ∈ done, Held opposite entry :=
    fun entry member => held entry (by rw [planned.split]; exact List.mem_append_left _ member)
  have heldRest : ∀ entry ∈ rest, Held opposite entry :=
    fun entry member => held entry (by rw [planned.split]; exact List.mem_append_right _ member)
  refine ⟨_, append_ok side row opposite plan.actions ?_, ?_⟩
  · intro action member
    have listed := List.mem_append_right (begun spec side row amount pending page) member
    rw [planned.emitted] at listed
    rcases List.mem_append.mp listed with whole | part
    · obtain ⟨entry, inside, source⟩ := List.mem_flatMap.mp whole
      exact candidate_projected spec side row amount opposite behind entry (heldDone entry inside) action source
    · exact begun_projected spec side row amount behind heldRest part
  · have emitted := congrArg (List.filterMap (outputRow side row opposite)) planned.emitted
    rw [List.filterMap_append, List.filterMap_append, begun_rows spec side row amount pending behind held,
      begun_rows spec side row amount later behind heldRest, List.filterMap_flatMap] at emitted
    rw [emitted]
    congr 1
    apply List.flatMap_congr
    intro entry member
    exact candidate_rows spec side row amount opposite behind entry (heldDone entry member)

def Entry.shiftTo (after : Int) (entry : Entry Row) : Entry Row :=
  if entry.rowId ≤ after then { entry with counts := entry.shifted spec side row amount } else entry

@[simp] theorem shift_to_id (entry : Entry Row) : (entry.shiftTo spec side row amount after).rowId = entry.rowId := by
  unfold Entry.shiftTo
  split <;> rfl

@[simp] theorem shift_to_row (entry : Entry Row) : (entry.shiftTo spec side row amount after).row = entry.row := by
  unfold Entry.shiftTo
  split <;> rfl

theorem shift_behind (after : Option Int) (entries : List (Entry Row)) (behind : Behind after entries) :
    Behind after (entries.map (Entry.shiftTo spec side row amount cut)) :=
  behind_map _ (shift_to_id spec side row amount cut) after entries behind

theorem shift_held (entry : Entry Row) (member : entry ∈ entries) :
    Held (entries.map (Entry.shiftTo spec side row amount cut)) entry :=
  ⟨_, List.mem_map_of_mem member, shift_to_id spec side row amount cut entry, shift_to_row spec side row amount cut entry⟩

-- A row that the key predicates leave out keeps its counts.
theorem shifted_skipped (entry : Entry Row) (skipped : spec.probed side row entry.row = false) :
    entry.shifted spec side row amount = entry.counts := by
  have known := spec.skipped side row entry.row skipped
  unfold Entry.shifted countsAfter
  rw [Entry.truth, known]

theorem changes_mem (change : CandidateStateChange) (member : change ∈ changesOf spec side row amount entries) :
    ∃ entry ∈ entries, change = ⟨expectationOf spec side row amount entry⟩ := by
  obtain ⟨expected, listed, kept⟩ := List.mem_filterMap.mp member
  obtain ⟨entry, inside, rfl⟩ := List.mem_map.mp listed
  split at kept
  · exact ⟨entry, inside, (Option.some.inj kept).symm⟩
  · cases kept

theorem changes_listed (entry : Entry Row) (member : entry ∈ entries)
    (moved : entry.counts ≠ entry.shifted spec side row amount) :
    ⟨expectationOf spec side row amount entry⟩ ∈ changesOf spec side row amount entries := by
  apply List.mem_filterMap.mpr
  exact ⟨_, List.mem_map_of_mem member, if_pos moved⟩

end

theorem expectation_matches (entry : Entry Row) : (expectationOf spec side row amount entry).matches entry = true := by
  simp [CandidateExpectation.matches, expectationOf]

theorem matches_id (expected : CandidateExpectation) (entry : Entry Row) (hit : expected.matches entry = true) :
    entry.rowId = expected.rowId := by
  simp only [CandidateExpectation.matches, Bool.and_eq_true, decide_eq_true_eq] at hit
  exact hit.1.1

-- The page's changes move the counts of the rows between the two cursors, and of no other.
theorem changes_applied {entries done : List (Entry Row)} {before after : Int} (behind : Behind none entries)
    (order : before ≤ after) (probed : ∀ entry ∈ done, entry ∈ entries ∧ before < entry.rowId ∧ entry.rowId ≤ after)
    (covered : ∀ entry ∈ entries, spec.probed side row entry.row = true → before < entry.rowId → entry.rowId ≤ after →
      entry ∈ done) :
    applyCandidateChanges (entries.map (Entry.shiftTo spec side row amount before)) (changesOf spec side row amount done) =
      .ok (entries.map (Entry.shiftTo spec side row amount after)) := by
  have waiting : ∀ entry : Entry Row, before < entry.rowId → entry.shiftTo spec side row amount before = entry :=
    fun entry later => if_neg (by omega)
  have present : (changesOf spec side row amount done).all (fun change =>
      (entries.map (Entry.shiftTo spec side row amount before)).any change.expected.matches) = true := by
    apply List.all_eq_true.mpr
    intro change member
    obtain ⟨entry, inside, rfl⟩ := changes_mem spec side row amount done change member
    obtain ⟨stored, later, _⟩ := probed entry inside
    apply List.any_eq_true.mpr
    refine ⟨entry.shiftTo spec side row amount before, List.mem_map_of_mem stored, ?_⟩
    rw [waiting entry later]
    exact expectation_matches spec side row amount entry
  rw [applyCandidateChanges, present]
  change Except.ok _ = Except.ok _
  congr 1
  rw [List.map_map]
  apply List.map_congr_left
  intro entry stored
  simp only [Function.comp_apply]
  cases found : (changesOf spec side row amount done).find? fun change =>
      change.expected.matches (entry.shiftTo spec side row amount before) with
  | some change =>
      obtain ⟨other, inside, rfl⟩ := changes_mem spec side row amount done change (List.mem_of_find?_eq_some found)
      have hit := List.find?_some found
      have same := matches_id _ _ hit
      rw [shift_to_id] at same
      obtain ⟨otherStored, later, reached⟩ := probed other inside
      obtain rfl := behind_unique none entries behind stored otherStored same
      simp only [waiting entry later]
      unfold Entry.shiftTo
      rw [if_pos reached]
      rfl
  | none =>
      simp only
      by_cases early : entry.rowId ≤ before
      · unfold Entry.shiftTo
        rw [if_pos early, if_pos (by omega)]
      have still := waiting entry (by omega)
      rw [still]
      unfold Entry.shiftTo
      by_cases reached : entry.rowId ≤ after
      · rw [if_pos reached]
        have same : entry.shifted spec side row amount = entry.counts := by
          cases seen : spec.probed side row entry.row with
          | false => exact shifted_skipped spec side row amount entry seen
          | true =>
              by_contra moved
              have inside := covered entry stored seen (by omega) reached
              have listed := changes_listed spec side row amount done entry inside (Ne.symm moved)
              have missing := List.find?_eq_none.mp found _ listed
              rw [still] at missing
              exact missing (expectation_matches spec side row amount entry)
        rw [same]
      · rw [if_neg reached]

end

end Shiba.Join
