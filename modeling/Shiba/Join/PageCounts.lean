import Shiba.Join.Counting
import Shiba.Join.InnerPage

set_option autoImplicit false

namespace Shiba.Join

open Shiba.Execution Weighted

section

variable {Row Value : Type} (layout : Layout Row Value)

theorem page_delta (page : InputPage Row) (entry : Entry Row) (truth : MatchTruth) (relevant : truth ≠ .false) :
    pageDelta layout page entry truth =
      total page.rows fun row => decide (truthOf layout.spec.condition page.side row entry.row = truth) := by
  unfold pageDelta
  apply congrArg
  funext row
  exact key_join_filtered layout page.side row entry.row truth relevant

theorem candidates_updated (page : InputPage Row) (opposite after : List (Entry Row))
    (updated : updateInnerPageCandidates layout page opposite = .ok after) :
    after = opposite.map (updatedCandidate layout page) ∧ ∀ entry ∈ opposite,
      0 ≤ entry.counts.matched + pageDelta layout page entry .true ∧
        0 ≤ entry.counts.unknown + pageDelta layout page entry .unknown := by
  unfold updateInnerPageCandidates at updated
  obtain ⟨_, _, updated⟩ := bind_ok_iff.mp updated
  obtain ⟨enough, result⟩ := refuse_bind_ok.mp updated
  refine ⟨(Except.ok.inj result).symm, ?_⟩
  intro entry member
  have here := (List.any_eq_false.mp enough) entry member
  rw [Bool.and_eq_true, not_and, Bool.not_eq_true, underflowsCandidate, Bool.or_eq_false_iff, decide_eq_false_iff_not,
    decide_eq_false_iff_not] at here
  by_cases changes : changesCandidate layout page entry = true
  · obtain ⟨matched, unknown⟩ := here changes
    omega
  · unfold changesCandidate at changes
    rw [Bool.or_eq_true, not_or, decide_eq_true_eq, decide_eq_true_eq, not_not, not_not] at changes
    omega

-- A row of the other side has met the rows of the page.
theorem page_tally (page : InputPage Row) (consumed : List ((InputSide × Row) × Int)) (entry : Entry Row)
    (tally : Tally layout.spec consumed page.side.opposite entry.row entry.counts)
    (matched : 0 ≤ entry.counts.matched + pageDelta layout page entry .true)
    (unknown : 0 ≤ entry.counts.unknown + pageDelta layout page entry .unknown) :
    Tally layout.spec (consumed ++ eventsOf page.side page.rows) page.side.opposite entry.row
      (updatedCandidate layout page entry).counts := by
  constructor
  · rw [meeting_events_opposite, ← page_delta layout page entry .true (by decide), ← tally.matched]
    exact Int.toNat_of_nonneg matched
  · rw [meeting_events_opposite, ← page_delta layout page entry .unknown (by decide), ← tally.unknown]
    exact Int.toNat_of_nonneg unknown

section

variable (side : InputSide) (opposite : List (Entry Row)) (row : Row)

theorem page_count_updated (page : InputPage Row) (truth : MatchTruth) (includeUnknown : Bool) :
    pageCount layout side (opposite.map (updatedCandidate layout page)) row truth includeUnknown =
      pageCount layout side opposite row truth includeUnknown := by
  unfold pageCount
  rw [List.map_map]
  rfl

theorem page_count_matched : pageCount layout side opposite row .true false = gathered layout.spec side row .true opposite := by
  unfold pageCount gathered Entry.truth
  simp only [key_join_matched, decide_eq_true_eq]

-- What the unknown branch counts too much.
def falselyCounted : List (Entry Row) → Nat
  | [] => 0
  | entry :: rest =>
      (if keyUnknownPredicate layout.keys side row entry.row = true ∧ truthOf layout.residual side row entry.row = .false then
        entry.multiplicity
      else 0) + falselyCounted rest

theorem page_count_unknown : pageCount layout side opposite row .unknown true =
    gathered layout.spec side row .unknown opposite + falselyCounted layout side row opposite := by
  induction opposite with
  | nil => rfl
  | cons entry rest ih =>
      have joined := key_join_unknown layout side row entry.row
      have apart := unknown_truth layout side row entry.row
      unfold FalselyUnknown at joined apart
      rw [gathered_cons, falselyCounted]
      have head : pageCount layout side (entry :: rest) row .unknown true =
          (if keyJoin layout.keys side row entry.row true (decide (entry.truth layout.spec side row = .unknown)) then
            entry.multiplicity else 0) + pageCount layout side rest row .unknown true := rfl
      rw [head, ih]
      unfold Entry.truth
      by_cases falsely : keyUnknownPredicate layout.keys side row entry.row = true ∧
          truthOf layout.residual side row entry.row = .false
      · have decided : truthOf layout.spec.condition side row entry.row ≠ .unknown :=
          fun unknown => (apart falsely.1).mp unknown falsely
        rw [if_pos (joined.mpr (Or.inr falsely)), if_neg decided, if_pos falsely]
        omega
      · by_cases unknown : truthOf layout.spec.condition side row entry.row = .unknown
        · rw [if_pos (joined.mpr (Or.inl unknown)), if_pos unknown, if_neg falsely]
          omega
        · rw [if_neg fun either => (joined.mp either).elim unknown falsely, if_neg unknown, if_neg falsely]
          omega

theorem falsely_counted_iff (positive : ∀ entry ∈ opposite, 0 < entry.multiplicity) :
    falselyCounted layout side row opposite = 0 ↔ ∀ entry ∈ opposite, ¬ FalselyUnknown layout side row entry.row := by
  induction opposite with
  | nil => simp [falselyCounted]
  | cons entry rest ih =>
      have later := ih fun other member => positive other (List.mem_cons_of_mem _ member)
      have here := positive entry List.mem_cons_self
      rw [falselyCounted, List.forall_mem_cons, ← later, Nat.add_eq_zero_iff]
      apply and_congr_left
      intro _
      unfold FalselyUnknown
      split
      · rename_i falsely
        simp only [falsely, and_self, not_true_eq_false, iff_false]
        omega
      · rename_i kept
        simp only [kept, not_false_eq_true]

end

variable [DecidableEq Row]

-- The counts that a page writes for one of its rows are right exactly when no
-- opposite row is falsely unknown for it.
theorem page_counts_iff {consumed : List ((InputSide × Row) × Int)} {arrangement : InputSide → List (Entry Row)}
    {nextRowId : InputSide → Int} (tallied : Tallied layout.spec consumed arrangement nextRowId) (side : InputSide) (row : Row) :
    Tally layout.spec consumed side row (pageCounts layout side (arrangement side.opposite) row) ↔
      ∀ entry ∈ arrangement side.opposite, ¬ FalselyUnknown layout side row entry.row := by
  have matched := gathered_meeting layout.spec consumed arrangement nextRowId tallied side row .true
  have unknown := gathered_meeting layout.spec consumed arrangement nextRowId tallied side row .unknown
  have counted := page_count_unknown layout side (arrangement side.opposite) row
  rw [← falsely_counted_iff layout side (arrangement side.opposite) row fun entry member =>
    (tallied.stored side.opposite entry member).2]
  constructor
  · intro tally
    have known : (pageCount layout side (arrangement side.opposite) row .unknown true : Int) =
        meeting layout.spec consumed side row .unknown := tally.unknown
    rw [counted, ← unknown] at known
    omega
  · intro clean
    refine ⟨?_, ?_⟩
    · rw [pageCounts, page_count_matched, matched]
    · rw [pageCounts, counted, clean, Nat.add_zero, unknown]

section

variable (page : InputPage Row) (own opposite : List (Entry Row))

variable (rows : List Row) (nextRowId : Int)

theorem inserted_rows :
    (insertedRows layout page own opposite rows nextRowId).map Entry.row = rows := by
  induction rows generalizing nextRowId with
  | nil => rfl
  | cons row rest ih => rw [insertedRows, List.map_cons, ih]

theorem inserted_mem (entry : Entry Row) (member : entry ∈ insertedRows layout page own opposite rows nextRowId) :
    entry.row ∈ rows ∧ (nextRowId ≤ entry.rowId ∧ entry.rowId < nextRowId + rows.length) ∧
      entry.multiplicity = (newMultiplicity page own entry.row).toNat ∧
      entry.counts = pageCounts layout page.side opposite entry.row := by
  induction rows generalizing nextRowId with
  | nil => cases member
  | cons row rest ih =>
      rw [insertedRows] at member
      rcases List.mem_cons.mp member with rfl | later
      · refine ⟨List.mem_cons_self, ⟨Int.le_refl _, ?_⟩, rfl, rfl⟩
        simp only [List.length_cons]
        omega
      · obtain ⟨listed, ⟨low, high⟩, multiplicity, counts⟩ := ih (nextRowId + 1) later
        refine ⟨List.mem_cons_of_mem _ listed, ⟨by omega, ?_⟩, multiplicity, counts⟩
        simp only [List.length_cons]
        omega

theorem inserted_behind (kept : List (Entry Row)) (behind : Behind none kept)
    (below : ∀ entry ∈ kept, entry.rowId < nextRowId) :
    Behind none (kept ++ insertedRows layout page own opposite rows nextRowId) := by
  induction rows generalizing nextRowId kept with
  | nil =>
      rw [insertedRows, List.append_nil]
      exact behind
  | cons row rest ih =>
      rw [insertedRows, List.append_cons]
      apply ih
      · exact behind_append none kept _ behind (fun _ same => by cases same) below
      · intro entry member
        rcases List.mem_append.mp member with old | new
        · have low := below entry old
          omega
        · rw [List.mem_singleton.mp new]
          exact Int.lt_succ nextRowId

theorem own_state_inv (next : Int) (after : List (Entry Row))
    (applied : applyInnerPageOwnState layout page own opposite nextRowId = .ok (after, next)) :
    after = ((own.filter fun entry => !removesRow page own entry).map (updatedRow layout page own opposite)) ++
        insertedRows layout page own opposite (absentRows page own) nextRowId ∧
      next = nextRowId + (absentRows page own).length ∧
      (∀ row ∈ page.order, 0 ≤ newMultiplicity page own row) ∧
      ∀ row ∈ absentRows page own, newMultiplicity page own row ≠ 0 := by
  unfold applyInnerPageOwnState at applied
  obtain ⟨_, _, applied⟩ := bind_ok_iff.mp applied
  obtain ⟨sound, result⟩ := refuse_bind_ok.mp applied
  rw [Bool.or_eq_false_iff, Bool.not_eq_false'] at sound
  obtain ⟨valid, mutated⟩ := sound
  have parts := Except.ok.inj result
  refine ⟨(congrArg Prod.fst parts).symm, (congrArg Prod.snd parts).symm, ?_, ?_⟩
  · intro row member
    have here := List.all_eq_true.mp valid row member
    rw [validRow, Bool.and_eq_true] at here
    exact of_decide_eq_true here.2
  · intro row member zero
    exact List.any_eq_false.mp mutated row member (decide_eq_true zero)

end

section

variable (consumed : List ((InputSide × Row) × Int)) (arrangement : InputSide → List (Entry Row)) (nextRowId : InputSide → Int)
  (tallied : Tallied layout.spec consumed arrangement nextRowId) (page : InputPage Row)

include tallied

theorem old_known (row : Row) :
    (oldMultiplicity (arrangement page.side) row : Int) = bagOf consumed page.side row := by
  rw [← (own_known layout.spec consumed tallied page.side row).1]
  unfold oldMultiplicity expectedOwn
  cases ownEntry (arrangement page.side) row <;> rfl

theorem new_known (row : Row) :
    newMultiplicity page (arrangement page.side) row = bagOf consumed page.side row + weight page.rows row := by
  rw [newMultiplicity, old_known layout consumed arrangement nextRowId tallied page row]

-- A clean page keeps the invariant.
theorem page_tallied (grouped : page.order.Perm (page.rows.map Prod.fst).dedup) (own : List (Entry Row)) (next : Int)
    (clean : ∀ row ∈ page.order, 0 < newMultiplicity page (arrangement page.side) row →
      ∀ entry ∈ arrangement page.side.opposite, ¬ FalselyUnknown layout page.side row entry.row)
    (natural : ∀ entry ∈ arrangement page.side.opposite, 0 ≤ entry.counts.matched + pageDelta layout page entry .true ∧
      0 ≤ entry.counts.unknown + pageDelta layout page entry .unknown)
    (applied : applyInnerPageOwnState layout page (arrangement page.side)
      ((arrangement page.side.opposite).map (updatedCandidate layout page)) (nextRowId page.side) = .ok (own, next)) :
    Tallied layout.spec (consumed ++ eventsOf page.side page.rows)
      (setSide (setSide arrangement page.side.opposite ((arrangement page.side.opposite).map (updatedCandidate layout page)))
        page.side own) (setSide nextRowId page.side next) := by
  obtain ⟨rfl, rfl, valid, absent⟩ := own_state_inv layout page _ _ _ next own applied
  have known := new_known layout consumed arrangement nextRowId tallied page
  have listed : ∀ row, row ∈ page.order ↔ row ∈ page.rows.map Prod.fst := by
    intro row
    rw [grouped.mem_iff, List.mem_dedup]
  have unmoved : ∀ row, row ∉ page.order → weight page.rows row = 0 := by
    intro row missing
    by_contra moved
    have inside := weight_support page.rows row moved
    exact missing ((listed row).mpr (List.mem_toFinset.mp inside))
  have counts : ∀ row ∈ page.order, 0 < newMultiplicity page (arrangement page.side) row →
      Tally layout.spec consumed page.side row (pageCounts layout page.side
        ((arrangement page.side.opposite).map (updatedCandidate layout page)) row) := by
    intro row member positive
    have right := (page_counts_iff layout tallied page.side row).mpr (clean row member positive)
    have same : pageCounts layout page.side ((arrangement page.side.opposite).map (updatedCandidate layout page)) row =
        pageCounts layout page.side (arrangement page.side.opposite) row := by
      unfold pageCounts
      rw [page_count_updated, page_count_updated]
    rw [same]
    exact right
  have updatedId : ∀ opposite (entry : Entry Row), (updatedRow layout page (arrangement page.side) opposite entry).rowId =
      entry.rowId ∧ (updatedRow layout page (arrangement page.side) opposite entry).row = entry.row := by
    intro opposite entry
    unfold updatedRow
    split <;> exact ⟨rfl, rfl⟩
  have kept : ∀ entry ∈ (arrangement page.side).filter fun entry => !removesRow page (arrangement page.side) entry,
      entry ∈ arrangement page.side ∧
        (entry.row ∈ page.order → 0 < newMultiplicity page (arrangement page.side) entry.row) := by
    intro entry member
    obtain ⟨inside, stays⟩ := List.mem_filter.mp member
    refine ⟨inside, fun inOrder => ?_⟩
    have natural := valid entry.row inOrder
    have nonzero : newMultiplicity page (arrangement page.side) entry.row ≠ 0 := by
      intro zero
      rw [removesRow, decide_eq_true inOrder, decide_eq_true zero] at stays
      cases stays
    omega
  have inserted : ∀ row ∈ absentRows page (arrangement page.side), row ∈ page.order ∧
      ownEntry (arrangement page.side) row = none ∧ 0 < newMultiplicity page (arrangement page.side) row := by
    intro row member
    obtain ⟨inOrder, missing⟩ := List.mem_filter.mp member
    have natural := valid row inOrder
    have nonzero := absent row member
    exact ⟨inOrder, Option.isNone_iff_eq_none.mp missing, by omega⟩
  have identified := tallied.identified page.side
  apply tallied_next layout.spec consumed arrangement nextRowId page.side page.rows _ _ (updatedCandidate layout page) tallied
  · apply inserted_behind
    · exact behind_map _ (fun entry => (updatedId _ entry).1) none _ (behind_filter _ none _ (tallied.ordered page.side))
    · intro entry member
      obtain ⟨old, inside, rfl⟩ := List.mem_map.mp member
      rw [(updatedId _ old).1]
      exact (identified old (kept old inside).1).2
  · have fresh := tallied.fresh page.side
    omega
  · intro entry member
    have fresh := tallied.fresh page.side
    rcases List.mem_append.mp member with old | new
    · obtain ⟨before, inside, rfl⟩ := List.mem_map.mp old
      have bounds := identified before (kept before inside).1
      rw [(updatedId _ before).1]
      omega
    · obtain ⟨_, bounds, _⟩ := inserted_mem layout page _ _ _ _ entry new
      omega
  · have rows : (((arrangement page.side).filter fun entry => !removesRow page (arrangement page.side) entry).map
        (updatedRow layout page (arrangement page.side)
          ((arrangement page.side.opposite).map (updatedCandidate layout page)))).map Entry.row =
        ((arrangement page.side).filter fun entry => !removesRow page (arrangement page.side) entry).map Entry.row := by
      rw [List.map_map]
      exact List.map_congr_left fun entry _ => (updatedId _ entry).2
    rw [List.map_append, rows, inserted_rows, List.nodup_append]
    refine ⟨(tallied.distinct page.side).sublist (List.filter_sublist.map Entry.row),
      (grouped.nodup_iff.mpr (List.nodup_dedup _)).filter _, ?_⟩
    intro one first other second same
    obtain ⟨entry, member, rfl⟩ := List.mem_map.mp first
    exact own_entry_none _ other (inserted other second).2.1 entry (kept entry member).1 same
  · intro row
    by_cases inOrder : row ∈ page.order
    · have natural := valid row inOrder
      rw [known row] at natural
      exact natural
    · rw [unmoved row inOrder, Int.add_zero]
      exact tallied.natural page.side row
  · intro entry member
    rcases List.mem_append.mp member with old | new
    · obtain ⟨before, inside, rfl⟩ := List.mem_map.mp old
      obtain ⟨stored, positive⟩ := kept before inside
      rw [(updatedId _ before).2, ← known before.row]
      unfold updatedRow
      by_cases inOrder : before.row ∈ page.order
      · have more := positive inOrder
        rw [if_pos inOrder]
        exact ⟨Int.toNat_of_nonneg (by omega), by simp only; omega⟩
      · rw [if_neg inOrder, known before.row, unmoved before.row inOrder, Int.add_zero]
        exact tallied.stored page.side before stored
    · obtain ⟨inside, _, multiplicity, _⟩ := inserted_mem layout page _ _ _ _ entry new
      have more := (inserted entry.row inside).2.2
      rw [← known entry.row, multiplicity]
      exact ⟨Int.toNat_of_nonneg (by omega), by omega⟩
  · intro row nonzero
    rw [← known row] at nonzero
    cases found : ownEntry (arrangement page.side) row with
    | some own =>
        obtain ⟨member, named⟩ := own_entry_some found
        refine ⟨_, List.mem_append_left _ (List.mem_map_of_mem (List.mem_filter.mpr ⟨member, ?_⟩)),
          (updatedId _ own).2.trans named⟩
        rw [removesRow, named, decide_eq_false nonzero, Bool.and_false]
        rfl
    | none =>
        have inOrder : row ∈ page.order := by
          by_contra missing
          rw [known row, unmoved row missing, Int.add_zero] at nonzero
          obtain ⟨entry, member, same⟩ := tallied.present page.side row nonzero
          exact own_entry_none _ row found entry member same
        have member : row ∈ (insertedRows layout page (arrangement page.side)
            ((arrangement page.side.opposite).map (updatedCandidate layout page)) (absentRows page (arrangement page.side))
            (nextRowId page.side)).map Entry.row := by
          rw [inserted_rows]
          exact List.mem_filter.mpr ⟨inOrder, by rw [found]; rfl⟩
        obtain ⟨entry, inside, same⟩ := List.mem_map.mp member
        exact ⟨entry, List.mem_append_right _ inside, same⟩
  · intro entry member
    rcases List.mem_append.mp member with old | new
    · obtain ⟨before, inside, rfl⟩ := List.mem_map.mp old
      obtain ⟨stored, positive⟩ := kept before inside
      rw [(updatedId _ before).2]
      unfold updatedRow
      by_cases inOrder : before.row ∈ page.order
      · rw [if_pos inOrder]
        exact counts before.row inOrder (positive inOrder)
      · rw [if_neg inOrder]
        exact tallied.tallied page.side before stored
    · obtain ⟨inside, _, _, right⟩ := inserted_mem layout page _ _ _ _ entry new
      obtain ⟨inOrder, _, positive⟩ := inserted entry.row inside
      rw [right]
      exact counts entry.row inOrder positive
  · exact fun _ => ⟨rfl, rfl, rfl⟩
  · intro entry member
    exact page_tally layout page consumed entry (tallied.tallied page.side.opposite entry member) (natural entry member).1
      (natural entry member).2

end

theorem page_kept {state after : JoinState Row} {page : InputPage Row} {budget : WorkBudget} (kept : Kept layout.spec state)
    (ready : PageReady layout state page budget) (clean : PageClean layout state page)
    (stepped : executeInnerPage layout state page = .ok after) : Kept layout.spec after := by
  have tallied : Tallied layout.spec state.consumed state.arrangement state.nextRowId := by
    have idle := ready.idle
    cases kept with
    | idle _ tallied => exact tallied
    | scanning current progress entries done rest pending counting continued
    | scanned current progress entries done counting continued =>
        rw [counting.here] at idle
        cases idle
  unfold executeInnerPage at stepped
  obtain ⟨entries, updated, stepped⟩ := bind_ok_iff.mp stepped
  obtain ⟨⟨own, next⟩, applied, result⟩ := bind_ok_iff.mp stepped
  obtain ⟨rfl, natural⟩ := candidates_updated layout page _ entries updated
  rw [← Except.ok.inj result]
  exact .idle ready.idle (page_tallied layout state.consumed state.arrangement state.nextRowId tallied page ready.grouped own next
    clean natural applied)

theorem run_kept (state : JoinState Row)
    (ran : Transition.Path (storeStep layout) (Clean layout) {} state) : Kept layout.spec state := by
  apply Transition.path_invariant (Kept layout.spec) _ {} state (.idle rfl (tallied_start layout.spec)) ran
  intro before choice after kept clean stepped
  cases clean with
  | row choice => exact row_kept layout.spec before after choice kept stepped
  | page page budget ready clean => exact page_kept layout kept ready clean stepped

end

end Shiba.Join
