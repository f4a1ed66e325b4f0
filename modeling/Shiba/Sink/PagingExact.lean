import Shiba.Sink.Paging
import Shiba.Library.Rounds

set_option autoImplicit false

namespace Shiba.Sink

open Copies Weighted Rounds Portions Shiba.Stream Shiba.Execution Shiba.Linear

-- One page of consume_data: the heads it reads, the loop over them, and the
-- check of their usage that the transition makes.
def planPage (chunk : WeightedChunk) (continuation : SinkContinuation) (budget : WorkBudget) : Except Fault PagePlan := do
  let firstOrdinal := continuation.position.rowOrdinal
  refuse (decide (chunk.effects.length ≤ firstOrdinal)) "Sink continuation is outside its data chunk"
  refuse (decide (bigintMax < budget.maxInputRows)) "Sink page row limit exceeds bigint"
  let heads := headsOf firstOrdinal ((chunk.effects.drop firstOrdinal).take budget.maxInputRows)
  refuse heads.isEmpty "Sink effect position has no payload suffix"
  refuse (heads.any fun head => decide (head.weight = 0) || decide (head.rowBytes = 0))
    "Sink effect page is non-contiguous or invalid"
  refuse (heads.any fun head => decide (head.rowOrdinal = bigintMax)) "Sink effect ordinal exhausted bigint"
  let quantum : WorkQuantum := { budget := budget, maxTransitions := budget.maxInputRows }
  let plan ← planHeadsChecked continuation.position chunk.effects.length heads ⟨[], quantum, some continuation⟩
  refuse plan.actions.isEmpty "Sink page selected no effect rows"
  plan.quantum.used.validate budget
  return plan

-- The continuation that is stored, and what the pages have applied.
structure PagingState where
  next : Option SinkContinuation
  applied : List SinkAction

def pageStep (chunk : WeightedChunk) (state : PagingState) (budget : WorkBudget) : Except Fault PagingState :=
  match state.next with
  | none => .ok state
  | some continuation => do
      let plan ← planPage chunk continuation budget
      return ⟨plan.next, state.applied ++ plan.actions⟩

def fromRowZero (chunk : WeightedChunk) : PagingState := ⟨some ⟨⟨chunk.streamId, chunk.chunkSeq, 0⟩, none, false⟩, []⟩

def chunkPages (chunk : WeightedChunk) (budgets : Nat → WorkBudget) (count : Nat) : Except Fault PagingState :=
  rounds (pageStep chunk) (fun state => state.next.isNone) budgets count 0 (fromRowZero chunk)

def SameSign (chunk : WeightedChunk) (slice : Nat × Int) : Prop :=
  ∃ effect, chunk.effects[slice.1]? = some effect ∧ slice.2.sign = effect.weight.sign

-- What is applied and what is pending make up the weights of the chunk.
structure PagedWhole (chunk : WeightedChunk) (state : PagingState) : Prop where
  balance : ∀ ordinal, weight (slices state.applied) ordinal + weight (chunk.pending state.next) ordinal =
    weight (numberedWeights 0 chunk.effects) ordinal
  signed : ∀ slice ∈ slices state.applied, SameSign chunk slice
  inside : ∀ continuation, state.next = some continuation → CursorAt chunk continuation

section

variable (chunk : WeightedChunk)

section

variable (ordinal : Nat) (continuation : SinkContinuation)

theorem numbered_weight (first : Nat) (effects : List Effect) :
    weight (numberedWeights first effects) ordinal =
      if first ≤ ordinal then ((effects[ordinal - first]?).map Effect.weight).getD 0 else 0 := by
  induction effects generalizing first with
  | nil =>
      change (0 : Int) = _
      rw [List.getElem?_nil]
      split <;> rfl
  | cons effect rest ih =>
      rw [numbered_weights_cons, weight_cons, ih]
      by_cases here : first = ordinal
      · rw [if_pos here, if_neg (by omega), if_pos (by omega), ← here, Nat.sub_self]
        exact Int.add_zero _
      · rw [if_neg here, Int.zero_add]
        by_cases behind : first + 1 ≤ ordinal
        · have next : ordinal - first = ordinal - (first + 1) + 1 := by omega
          rw [if_pos behind, if_pos (by omega), next, List.getElem?_cons_succ]
        · rw [if_neg behind, if_neg (by omega)]

theorem numbered_same_sign (slice : Nat × Int) (member : slice ∈ numberedWeights ordinal (chunk.effects.drop ordinal)) :
    SameSign chunk slice := by
  obtain ⟨⟨effect, index⟩, inside, rfl⟩ := List.mem_map.mp member
  obtain ⟨low, _, found⟩ := List.mem_zipIdx inside
  refine ⟨effect, ?_, rfl⟩
  have bound : index - ordinal < (chunk.effects.drop ordinal).length := by omega
  rw [found, List.getElem_drop, List.getElem?_eq_getElem (by rw [List.length_drop] at bound; omega)]
  congr 2
  omega

theorem pending_signed (cursor : CursorAt chunk continuation) (slice : Nat × Int)
    (member : slice ∈ chunk.pending (some continuation)) : SameSign chunk slice := by
  have rows := List.drop_eq_getElem_cons cursor.inside
  rw [pending_at chunk continuation _ _ rows] at member
  rcases List.mem_cons.mp member with rfl | later
  · have found := List.getElem?_eq_getElem cursor.inside
    refine ⟨_, found, ?_⟩
    have nonzero := chunk.present _ (List.mem_of_getElem? found)
    exact (remaining_part _ _ nonzero (cursor.suffix _ found)).2.1
  · exact numbered_same_sign chunk _ slice later

theorem pending_start : chunk.pending (fromRowZero chunk).next = numberedWeights 0 chunk.effects := by
  change chunk.pending (some ⟨⟨chunk.streamId, chunk.chunkSeq, 0⟩, none, false⟩) = _
  cases isRest : chunk.effects with
  | nil => exact absurd isRest chunk.filled
  | cons effect rest =>
      rw [pending_at chunk ⟨⟨chunk.streamId, chunk.chunkSeq, 0⟩, none, false⟩ effect rest isRest, numbered_weights_cons]
      rfl

theorem start_paged : PagedWhole chunk (fromRowZero chunk) := by
  refine ⟨?_, List.forall_mem_nil _, ?_⟩
  · intro ordinal
    rw [pending_start]
    exact Int.zero_add _
  · intro continuation same
    obtain rfl := Option.some.inj same
    refine ⟨rfl, List.length_pos_iff.mpr chunk.filled, ?_⟩
    intro effect found rest isRest
    cases isRest

-- A page is accepted, as the loop without machine integers plans it: it applies
-- some of what is pending, with the signs of its weights.
theorem whole_page_planned (cursor : CursorAt chunk continuation) (budget : WorkBudget) (sized : Sized budget) :
    ∃ plan, planPage chunk continuation budget = .ok plan ∧
      planHeads continuation.position chunk.effects.length
        (headsOf continuation.position.rowOrdinal ((chunk.effects.drop continuation.position.rowOrdinal).take budget.maxInputRows))
        ⟨[], { budget := budget, maxTransitions := budget.maxInputRows }, some continuation⟩ = .ok plan ∧
      Cut (chunk.pending (some continuation)) (slices plan.actions) (chunk.pending plan.next) ∧ plan.actions ≠ [] ∧
      ∀ next, plan.next = some next → CursorAt chunk next := by
  generalize isPage : (chunk.effects.drop continuation.position.rowOrdinal).take budget.maxInputRows = rows
  have some : rows ≠ [] := by
    rw [← isPage, ne_eq, List.take_eq_nil_iff, List.drop_eq_nil_iff, not_or]
    exact ⟨Nat.ne_of_gt budget.inputRowsPositive, Nat.not_le.mpr cursor.inside⟩
  have whole : chunk.effects.drop continuation.position.rowOrdinal =
      rows ++ (chunk.effects.drop continuation.position.rowOrdinal).drop budget.maxInputRows := by
    rw [← isPage, List.take_append_drop]
  have members (head : EffectHead) (member : head ∈ headsOf continuation.position.rowOrdinal rows) :
      head.weight ≠ 0 ∧ head.rowBytes ≠ 0 ∧ head.rowOrdinal ≠ bigintMax := by
    obtain ⟨⟨effect, index⟩, inside, rfl⟩ := List.mem_map.mp member
    obtain ⟨low, high, found⟩ := List.mem_zipIdx inside
    have listed : effect ∈ chunk.effects := by
      apply List.mem_of_mem_drop (i := continuation.position.rowOrdinal)
      rw [whole]
      apply List.mem_append_left
      rw [found]
      exact List.getElem_mem _
    have length : rows.length ≤ chunk.effects.length - continuation.position.rowOrdinal := by
      rw [← isPage, List.length_take, List.length_drop]
      exact Nat.min_le_right _ _
    have counted := chunk.counted
    refine ⟨chunk.present effect listed, Nat.ne_of_gt (chunk.measured effect listed), ?_⟩
    change index ≠ bigintMax
    have row := cursor.inside
    omega
  have fits : QuantumFits { budget := budget, maxTransitions := budget.maxInputRows } :=
    ⟨rfl, ⟨Nat.zero_le _, .inl (Nat.zero_le _)⟩, ⟨Nat.zero_le _, .inl (Nat.zero_le _)⟩⟩
  have left : (WorkQuantum.remaining { budget := budget, maxTransitions := budget.maxInputRows }).isSome = true := by
    rw [WorkQuantum.remaining, if_neg (Nat.not_le.mpr budget.inputRowsPositive), dif_pos
      ⟨budget.inputRowsPositive, budget.inputBytesPositive, budget.outputRowsPositive, budget.outputBytesPositive⟩]
    rfl
  obtain ⟨actions, quantum, next, loops, planned, goes⟩ := plan_heads_checked chunk continuation.position
    (congrArg InputPosition.streamId cursor.position) (congrArg InputPosition.chunkSeq cursor.position) rows _
    continuation.position.rowOrdinal ⟨[], { budget := budget, maxTransitions := budget.maxInputRows }, Option.some continuation⟩
    continuation rfl rfl cursor fits sized left whole
  have chosen := goes rfl some
  refine ⟨⟨actions, quantum, next⟩, ?_, isPage ▸ loops.2, planned.cut, chosen, planned.inside⟩
  have usage : quantum.used.validate budget = .ok () := by
    have same : quantum.budget = budget := planned.budget
    rw [validate_whole, ← same]
    exact ⟨⟨planned.fits.input.counted, planned.fits.input.sized⟩, planned.fits.output.counted, planned.fits.output.sized⟩
  have filled : (headsOf continuation.position.rowOrdinal rows).isEmpty = false := by
    cases rows with
    | nil => exact absurd rfl some
    | cons effect rest =>
        rw [heads_of_cons]
        rfl
  have valid : ((headsOf continuation.position.rowOrdinal rows).any fun head =>
      decide (head.weight = 0) || decide (head.rowBytes = 0)) = false := by
    rw [List.any_eq_false]
    intro head member
    obtain ⟨weighted, measured, _⟩ := members head member
    rw [decide_eq_false weighted, decide_eq_false measured]
    exact Bool.false_ne_true
  have numbered : ((headsOf continuation.position.rowOrdinal rows).any fun head => decide (head.rowOrdinal = bigintMax)) =
      false := by
    rw [List.any_eq_false]
    intro head member
    rw [decide_eq_false (members head member).2.2]
    exact Bool.false_ne_true
  have nonempty : actions.isEmpty = false := by
    cases actions with
    | nil => exact absurd rfl chosen
    | cons action rest => rfl
  unfold planPage
  simp only [isPage]
  rw [refuse_ok.mpr (decide_eq_false (Nat.not_le.mpr cursor.inside)), ok_bind,
    refuse_ok.mpr (decide_eq_false (Nat.not_lt.mpr sized.inputRows)), ok_bind, refuse_ok.mpr filled, ok_bind,
    refuse_ok.mpr valid, ok_bind, refuse_ok.mpr numbered, ok_bind, loops.1, ok_bind]
  change (refuse actions.isEmpty _ >>= _) = _
  rw [nonempty]
  change (quantum.used.validate budget >>= _) = _
  rw [usage]
  rfl

end

theorem page_step_keeps {state : PagingState} {budget : WorkBudget} (paged : PagedWhole chunk state) (goes : state.next.isNone = false)
    (sized : Sized budget) :
    ∃ after, pageStep chunk state budget = .ok after ∧ PagedWhole chunk after ∧
      units (chunk.pending after.next) < units (chunk.pending state.next) := by
  obtain ⟨next, applied⟩ := state
  cases next with
  | none => cases goes
  | some continuation =>
      have cursor := paged.inside continuation rfl
      obtain ⟨plan, planned, _, cut, chosen, inside⟩ := whole_page_planned chunk continuation cursor budget sized
      refine ⟨⟨plan.next, applied ++ plan.actions⟩, ?_, ⟨?_, ?_, inside⟩, ?_⟩
      · rw [pageStep]
        simp only
        rw [planned]
        rfl
      · intro ordinal
        have before := paged.balance ordinal
        have here := cut_weight _ _ _ cut ordinal
        have parts : weight (slices (applied ++ plan.actions)) ordinal =
            weight (slices applied) ordinal + weight (slices plan.actions) ordinal := by
          rw [slices, List.map_append, weight_append]
          rfl
        change weight (slices (applied ++ plan.actions)) ordinal + weight (chunk.pending plan.next) ordinal = _
        change weight (slices applied) ordinal + weight (chunk.pending (some continuation)) ordinal = _ at before
        omega
      · intro slice member
        change slice ∈ slices (applied ++ plan.actions) at member
        rw [slices, List.map_append] at member
        rcases List.mem_append.mp member with old | new
        · exact paged.signed slice old
        · obtain ⟨pending, listed, sameRow, sameSign⟩ := cut_signed _ _ _ cut slice new
          obtain ⟨effect, found, sign⟩ := pending_signed chunk continuation cursor pending listed
          exact ⟨effect, sameRow ▸ found, sameSign ▸ sign⟩
      · have total := cut_units _ _ _ cut
        have some : 0 < units (slices plan.actions) := by
          cases isActions : plan.actions with
          | nil => exact absurd isActions chosen
          | cons action rest =>
              have present := cut_present _ _ _ cut (action.rowOrdinal, action.appliedWeight) (by
                rw [isActions]
                exact List.mem_cons_self)
              change 0 < action.appliedWeight.natAbs + _
              have positive := Int.natAbs_pos.mpr present
              omega
        change units (chunk.pending plan.next) < units (chunk.pending (Option.some continuation))
        omega

-- Paging ends, and the slices of every row have its sign and sum to its weight.
theorem sink_paging_exact (budgets : Nat → WorkBudget) (sized : ∀ page, Sized (budgets page)) :
    (∀ count, ∃ state, chunkPages chunk budgets count = .ok state) ∧
      ∃ count final, chunkPages chunk budgets count = .ok final ∧ final.next = none ∧
        (∀ ordinal effect, chunk.effects[ordinal]? = some effect → weight (slices final.applied) ordinal = effect.weight) ∧
        ∀ slice ∈ slices final.applied, SameSign chunk slice := by
  have keeps (state : PagingState) (budget : WorkBudget) (paged : PagedWhole chunk state) (goes : state.next.isNone = false)
      (fits : Sized budget) : ∃ after, pageStep chunk state budget = .ok after ∧ PagedWhole chunk after := by
    obtain ⟨after, stepped, kept, _⟩ := page_step_keeps chunk paged goes fits
    exact ⟨after, stepped, kept⟩
  refine ⟨?_, ?_⟩
  · intro count
    obtain ⟨state, ran, _⟩ := rounds_keep _ _ budgets (PagedWhole chunk) Sized keeps sized count 0 _ (start_paged chunk)
    exact ⟨state, ran⟩
  · obtain ⟨count, final, ran, paged, done⟩ := rounds_end _ _ budgets (PagedWhole chunk) Sized keeps sized
      (fun state => units (chunk.pending state.next)) (by
        intro state budget after paged goes fits stepped
        obtain ⟨other, same, _, lower⟩ := page_step_keeps chunk paged goes fits
        obtain rfl := Except.ok.inj (same.symm.trans stepped)
        exact lower) 0 _ (start_paged chunk)
    have finished : final.next = none := Option.isNone_iff_eq_none.mp done
    refine ⟨count, final, ran, finished, ?_, paged.signed⟩
    intro ordinal effect found
    have balance := paged.balance ordinal
    rw [finished, numbered_weight, if_pos (Nat.zero_le _), Nat.sub_zero, found] at balance
    change _ + (0 : Int) = effect.weight at balance
    omega

end

theorem three_positive : 0 < 3 := by decide

theorem ten_positive : 0 < 10 := by decide

def fewCopies : WorkBudget := ⟨3, 10, 3, 10, three_positive, ten_positive, three_positive, ten_positive⟩

theorem few_copies_sized : Sized fewCopies := ⟨by decide, by decide, by decide, by decide⟩

-- The smallest weight, before a row that is larger than a page.
def minimumEffects : List Effect := [⟨-9223372036854775808, 1⟩, ⟨2, 17⟩]

theorem minimum_filled : minimumEffects ≠ [] := List.cons_ne_nil _ _

theorem minimum_counted : minimumEffects.length ≤ bigintMax := by decide

theorem minimum_present : ∀ effect ∈ minimumEffects, effect.weight ≠ 0 := by decide

theorem minimum_ranged : ∀ effect ∈ minimumEffects, isBigint effect.weight = true := by decide

theorem minimum_measured : ∀ effect ∈ minimumEffects, 0 < effect.rowBytes := by decide

theorem minimum_sized : ∀ effect ∈ minimumEffects, effect.rowBytes ≤ bigintMax := by decide

def minimumChunk : WeightedChunk where
  streamId := 3
  chunkSeq := 10
  effects := minimumEffects
  identified := three_positive
  numbered := ten_positive
  filled := minimum_filled
  counted := minimum_counted
  present := minimum_present
  bigint := minimum_ranged
  measured := minimum_measured
  sized := minimum_sized

theorem minimum_paging_exact :
    (∀ count, ∃ state, chunkPages minimumChunk (fun _ => fewCopies) count = .ok state) ∧
      ∃ count final, chunkPages minimumChunk (fun _ => fewCopies) count = .ok final ∧ final.next = none ∧
        (∀ ordinal effect, minimumChunk.effects[ordinal]? = some effect → weight (slices final.applied) ordinal = effect.weight) ∧
        ∀ slice ∈ slices final.applied, SameSign minimumChunk slice :=
  sink_paging_exact minimumChunk (fun _ => fewCopies) fun _ => few_copies_sized

end Shiba.Sink
