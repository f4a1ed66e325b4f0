import Shiba.Join.Progress

set_option autoImplicit false

namespace Shiba.Join

open Shiba.Execution Weighted

section

variable {Row : Type} (spec : JoinSpec Row)

-- A row that the key predicates leave out is not counted.
theorem gathered_probed (side : InputSide) (row : Row) (truth : MatchTruth) (relevant : truth ≠ .false)
    (entries : List (Entry Row)) : gathered spec side row truth (entries.filter fun entry => spec.probed side row entry.row) =
      gathered spec side row truth entries := by
  induction entries with
  | nil => rfl
  | cons entry rest ih =>
      cases seen : spec.probed side row entry.row with
      | true =>
          simp only [List.filter_cons, seen, if_true, gathered_cons, ih]
      | false =>
          have known : entry.truth spec side row = .false := spec.skipped side row entry.row seen
          simp only [List.filter_cons, seen, gathered_cons, known]
          simp [relevant.symm, ih]

def Entry.met (side : InputSide) (row : Row) (amount : Int) (entry : Entry Row) : Entry Row :=
  { entry with counts := entry.shifted spec side row amount }

-- A scan of the other side: `done` is behind its cursor, and `rest` is ahead of it.
structure Halfway (side : InputSide) (row : Row) (progress : InputProgress) (entries done rest : List (Entry Row)) : Prop where
  ordered : Behind none entries
  positive : ∀ entry ∈ entries, 0 < entry.rowId
  split : entries.filter (fun entry => spec.probed side row entry.row) = done ++ rest
  ahead : Behind progress.candidateAfter rest
  reached : ∀ entry ∈ done, entry.rowId ≤ cursor progress

section

variable {side : InputSide} {row : Row} (amount : Int) {progress : InputProgress} {entries done : List (Entry Row)} (rest : List (Entry Row))

variable {spec}

theorem halfway_stored (halfway : Halfway spec side row progress entries done rest) (entry : Entry Row)
    (member : entry ∈ done ++ rest) : entry ∈ entries ∧ spec.probed side row entry.row = true := by
  rw [← halfway.split] at member
  exact List.mem_filter.mp member

-- The probe returns the rows the event has not met, as they were before it.
theorem halfway_remaining (halfway : Halfway spec side row progress entries done rest) :
    remaining spec side row (cursor progress) (entries.map (Entry.shiftTo spec side row amount (cursor progress))) = rest := by
  have ahead := ahead_cursor progress rest (fun entry member => halfway.positive entry
    (halfway_stored rest halfway entry (List.mem_append_right _ member)).1) halfway.ahead
  have still : (entries.map (Entry.shiftTo spec side row amount (cursor progress))).filter
      (fun entry => decide (cursor progress < entry.rowId) && spec.probed side row entry.row) =
        entries.filter fun entry => decide (cursor progress < entry.rowId) && spec.probed side row entry.row := by
    rw [List.filter_map]
    have kept : ((fun entry : Entry Row => decide (cursor progress < entry.rowId) && spec.probed side row entry.row) ∘
        Entry.shiftTo spec side row amount (cursor progress)) =
          fun entry => decide (cursor progress < entry.rowId) && spec.probed side row entry.row := by
      funext entry
      simp only [Function.comp_apply, shift_to_id, shift_to_row]
    rw [kept]
    have unmoved : ∀ entry ∈ entries.filter fun entry => decide (cursor progress < entry.rowId) &&
        spec.probed side row entry.row, entry.shiftTo spec side row amount (cursor progress) = entry := by
      intro entry member
      have later := (List.mem_filter.mp member).2
      simp only [Bool.and_eq_true, decide_eq_true_eq] at later
      exact if_neg (by omega)
    exact (List.map_congr_left unmoved).trans (List.map_id _)
  unfold remaining
  rw [still, ← List.filter_filter, halfway.split, List.filter_append]
  have gone : done.filter (fun entry => decide (cursor progress < entry.rowId)) = [] := by
    apply List.filter_eq_nil_iff.mpr
    intro entry member
    have behind := halfway.reached entry member
    simp only [decide_eq_true_eq]
    omega
  have left : rest.filter (fun entry => decide (cursor progress < entry.rowId)) = rest := by
    apply List.filter_eq_self.mpr
    intro entry member
    exact decide_eq_true (ahead entry member)
  rw [gone, left, List.nil_append]

-- The changes of the next rows move their counts and no others, and the scan goes on behind them.
theorem halfway_next {added left : List (Entry Row)} (halfway : Halfway spec side row progress entries done (added ++ left)) :
    Halfway spec side row (progress.pastAll spec side row added) entries (done ++ added) left ∧
      applyCandidateChanges (entries.map (Entry.shiftTo spec side row amount (cursor progress)))
          (changesOf spec side row amount added) =
        .ok (entries.map (Entry.shiftTo spec side row amount (cursor (progress.pastAll spec side row added)))) := by
  have stored : ∀ entry ∈ added ++ left, entry ∈ entries := fun entry member =>
    (halfway_stored _ halfway entry (List.mem_append_right _ member)).1
  have inAdded : ∀ entry ∈ added, entry ∈ added ++ left := fun entry member => List.mem_append_left _ member
  have inLeft : ∀ entry ∈ left, entry ∈ added ++ left := fun entry member => List.mem_append_right _ member
  have ahead : Behind (progress.pastAll spec side row added).candidateAfter left :=
    past_all_behind spec side row added left progress halfway.ahead
  have behindAdded : Behind progress.candidateAfter added := by
    have cut := behind_take added.length progress.candidateAfter _ halfway.ahead
    rw [List.take_left'] at cut
    · exact cut
    · rfl
  obtain ⟨forward, reached⟩ := past_all_cursor spec side row added progress
    (fun entry member => halfway.positive entry (stored entry (inAdded entry member))) behindAdded
  have beyond := ahead_cursor progress (added ++ left) (fun entry member => halfway.positive entry (stored entry member))
    halfway.ahead
  have beyondLeft := ahead_cursor (progress.pastAll spec side row added) left
    (fun entry member => halfway.positive entry (stored entry (inLeft entry member))) ahead
  refine ⟨⟨halfway.ordered, halfway.positive, ?_, ahead, ?_⟩, ?_⟩
  · rw [List.append_assoc]
    exact halfway.split
  · intro entry member
    rcases List.mem_append.mp member with old | new
    · exact Int.le_trans (halfway.reached entry old) forward
    · exact reached entry new
  · apply changes_applied spec side row amount halfway.ordered forward
    · intro entry member
      exact ⟨stored entry (inAdded entry member), beyond entry (inAdded entry member), reached entry member⟩
    · intro entry member seen later earlier
      have listed : entry ∈ done ++ (added ++ left) := by
        rw [← halfway.split]
        exact List.mem_filter.mpr ⟨member, seen⟩
      rcases List.mem_append.mp listed with old | new
      · have gone := halfway.reached entry old
        omega
      · rcases List.mem_append.mp new with here | further
        · exact here
        · have order := beyondLeft entry further
          omega

-- After the last candidate every row of the other side has met the event.
theorem halfway_met (halfway : Halfway spec side row progress entries done []) :
    entries.map (Entry.shiftTo spec side row amount (cursor progress)) = entries.map (Entry.met spec side row amount) := by
  have split := halfway.split
  rw [List.append_nil] at split
  apply List.map_congr_left
  intro entry member
  unfold Entry.shiftTo Entry.met
  split
  · rfl
  · rename_i missed
    cases seen : spec.probed side row entry.row with
    | false => rw [shifted_skipped spec side row amount entry seen]
    | true =>
        have listed : entry ∈ done := by
          rw [← split]
          exact List.mem_filter.mpr ⟨member, seen⟩
        exact absurd (halfway.reached entry listed) missed

-- The rows of the other side that the event has met, and those it has not.
theorem halfway_parts [DecidableEq Row] (halfway : Halfway spec side row progress entries done rest)
    (consumed : List ((InputSide × Row) × Int)) (arrangement : InputSide → List (Entry Row)) (nextRowId : InputSide → Int)
    (tallied : Tallied spec consumed (setSide arrangement side.opposite entries) nextRowId) (truth : MatchTruth)
    (relevant : truth ≠ .false) :
    (gathered spec side row truth done : Int) + gathered spec side row truth rest = meeting spec consumed side row truth := by
  have known := gathered_meeting spec consumed _ nextRowId tallied side row truth
  rw [set_side_same, ← gathered_probed spec side row truth relevant, halfway.split, gathered_append] at known
  rw [← known]
  push_cast
  rfl

end

end

end Shiba.Join
