import Shiba.Sink.Runtime

set_option autoImplicit false

namespace Shiba.Sink

open Copies Shiba.Stream Shiba.Execution Shiba.Linear

variable {Row Out : Type}

-- What is left of an effect is a part of it with its sign.
def Suffix (effectWeight : Int) (remaining : Option Int) : Prop :=
  ∀ rest, remaining = some rest → rest ≠ 0 ∧ rest.sign = effectWeight.sign ∧ rest.natAbs ≤ effectWeight.natAbs

structure WeightPageFits (effectWeight : Int) (saved : Option Int) (rowBytes : Nat) (budget : WorkBudget)
    (page : WeightPage) : Prop where
  usage : page.usage = ⟨1, rowBytes, page.appliedWeight.natAbs, rowBytes * page.appliedWeight.natAbs⟩
  present : page.appliedWeight ≠ 0
  rows : page.appliedWeight.natAbs ≤ budget.maxOutputRows
  bytes : rowBytes ≤ budget.maxOutputBytes → rowBytes * page.appliedWeight.natAbs ≤ budget.maxOutputBytes
  oversized : budget.maxOutputBytes < rowBytes → page.appliedWeight.natAbs = 1
  finished : page.remainingWeight = none → page.appliedWeight = saved.getD effectWeight
  remaining : ∀ rest, page.remainingWeight = some rest → page.appliedWeight + rest = saved.getD effectWeight ∧
    ((0 < page.appliedWeight ∧ 0 < rest) ∨ (page.appliedWeight < 0 ∧ rest < 0)) ∧ Suffix effectWeight (some rest)

section WeightPage

variable (effectWeight : Int) (saved : Option Int) (rowBytes : Nat) (budget : WorkBudget) (nonzero : effectWeight ≠ 0)
  (measured : 0 < rowBytes) (suffix : Suffix effectWeight saved)

include nonzero suffix

theorem remaining_part : saved.getD effectWeight ≠ 0 ∧ (saved.getD effectWeight).sign = effectWeight.sign ∧
    (saved.getD effectWeight).natAbs ≤ effectWeight.natAbs := by
  cases saved with
  | none => exact ⟨nonzero, rfl, Nat.le_refl _⟩
  | some rest => exact suffix rest rfl

include measured

-- The copies of one page: at least one, and the whole rest when there is room for it.
theorem weight_page_ok : ∃ page, planWeightPage effectWeight saved rowBytes budget = .ok page ∧
    WeightPageFits effectWeight saved rowBytes budget page ∧
    ((saved.getD effectWeight).natAbs ≤ budget.maxOutputRows →
      rowBytes * (saved.getD effectWeight).natAbs ≤ budget.maxOutputBytes →
      (saved.getD effectWeight).natAbs ≤ bigintMax → page.remainingWeight = none) := by
  obtain ⟨here, sameSign, within⟩ := remaining_part effectWeight saved nonzero suffix
  unfold planWeightPage
  dsimp only
  generalize isRemaining : saved.getD effectWeight = remaining at here sameSign within ⊢
  generalize isByteCopies : (if budget.maxOutputBytes < rowBytes then 1 else budget.maxOutputBytes / rowBytes) = byteCopies
  generalize isCopies : min (min (min remaining.natAbs budget.maxOutputRows) byteCopies) bigintMax = copies
  have someBytes : 0 < byteCopies := by
    rw [← isByteCopies]
    split
    · exact Nat.one_pos
    · rename_i small
      exact Nat.div_pos (Nat.le_of_not_lt small) measured
  have someRows := budget.outputRowsPositive
  have somePages : 0 < bigintMax := by decide
  have positive : 0 < copies := by omega
  have rowLimit : copies ≤ budget.maxOutputRows := by omega
  have byteLimit : copies ≤ byteCopies := by omega
  have part : copies ≤ remaining.natAbs := by omega
  obtain ⟨appliedWeight, isApplied, sided⟩ : ∃ appliedWeight : Int,
      (if 0 < remaining then (copies : Int) else -(copies : Int)) = appliedWeight ∧
        ((0 < remaining ∧ appliedWeight = copies) ∨ (remaining < 0 ∧ appliedWeight = -copies)) := by
    refine ⟨_, rfl, ?_⟩
    split
    · exact .inl ⟨by omega, rfl⟩
    · exact .inr ⟨by omega, rfl⟩
  have applied : copies = appliedWeight.natAbs := by omega
  simp only [nonzero, here, sameSign, Nat.ne_of_gt measured, Nat.ne_of_gt positive, Nat.not_lt.mpr within, decide_false,
    ne_eq, not_true_eq_false, Bool.or_self, not_refused, ok_bind, isApplied]
  refine ⟨_, rfl, ⟨?_, ?_, ?_, ?_, ?_, ?_, ?_⟩, ?_⟩
  · simp only [applied]
  · change appliedWeight ≠ 0
    omega
  · change appliedWeight.natAbs ≤ _
    exact applied ▸ rowLimit
  · intro small
    change rowBytes * appliedWeight.natAbs ≤ _
    rw [if_neg (Nat.not_lt.mpr small)] at isByteCopies
    calc rowBytes * appliedWeight.natAbs ≤ rowBytes * (budget.maxOutputBytes / rowBytes) :=
          Nat.mul_le_mul_left _ (by omega)
      _ ≤ budget.maxOutputBytes := Nat.mul_div_le _ _
  · intro large
    change appliedWeight.natAbs = 1
    rw [if_pos large] at isByteCopies
    omega
  · intro finished
    change (if remaining - appliedWeight = 0 then none else some (remaining - appliedWeight)) = none at finished
    change appliedWeight = saved.getD effectWeight
    by_cases nothing : remaining - appliedWeight = 0
    · omega
    · rw [if_neg nothing] at finished
      cases finished
  · intro rest isRest
    change (if remaining - appliedWeight = 0 then none else some (remaining - appliedWeight)) = some rest at isRest
    change appliedWeight + rest = saved.getD effectWeight ∧
      ((0 < appliedWeight ∧ 0 < rest) ∨ (appliedWeight < 0 ∧ rest < 0)) ∧ Suffix effectWeight (some rest)
    by_cases nothing : remaining - appliedWeight = 0
    · rw [if_pos nothing] at isRest
      cases isRest
    · rw [if_neg nothing] at isRest
      obtain rfl := Option.some.inj isRest
      refine ⟨by omega, by omega, ?_⟩
      intro same isSame
      obtain rfl := Option.some.inj isSame
      refine ⟨nothing, ?_, by omega⟩
      rw [← sameSign]
      rcases sided with ⟨up, _⟩ | ⟨down, _⟩
      · rw [Int.sign_eq_one_of_pos up, Int.sign_eq_one_of_pos (by omega)]
      · rw [Int.sign_eq_neg_one_of_neg down, Int.sign_eq_neg_one_of_neg (by omega)]
  · intro rowRoom byteRoom bounded
    change (if remaining - appliedWeight = 0 then none else some (remaining - appliedWeight)) = none
    have allBytes : remaining.natAbs ≤ byteCopies := by
      rw [← isByteCopies]
      have one : 0 < remaining.natAbs := Int.natAbs_pos.mpr here
      have small : ¬ budget.maxOutputBytes < rowBytes :=
        Nat.not_lt.mpr (Nat.le_trans (Nat.le_mul_of_pos_right _ one) byteRoom)
      rw [if_neg small]
      exact (Nat.le_div_iff_mul_le measured).mpr (Nat.mul_comm _ _ ▸ byteRoom)
    exact if_pos (by omega)

end WeightPage

-- What a page has used is within its budget.
structure QuantumFits (quantum : WorkQuantum) : Prop where
  counted : quantum.transitions = quantum.used.inputRows
  input : PageFits quantum.used.inputRows quantum.used.inputBytes quantum.budget.maxInputRows quantum.budget.maxInputBytes
  output : PageFits quantum.used.outputRows quantum.used.outputBytes quantum.budget.maxOutputRows
    quantum.budget.maxOutputBytes

def recorded (quantum : WorkQuantum) (usage : WorkUsage) : WorkQuantum :=
  { quantum with
    used := ⟨quantum.used.inputRows + usage.inputRows, quantum.used.inputBytes + usage.inputBytes,
      quantum.used.outputRows + usage.outputRows, quantum.used.outputBytes + usage.outputBytes⟩
    transitions := quantum.transitions + 1 }

section Quantum

variable (quantum : WorkQuantum) (left : WorkBudget) (hasLeft : quantum.remaining = some left)

include hasLeft

theorem remaining_cases : quantum.transitions < quantum.maxTransitions ∧
    quantum.used.inputRows + left.maxInputRows = quantum.budget.maxInputRows ∧
    quantum.used.inputBytes + left.maxInputBytes = quantum.budget.maxInputBytes ∧
    quantum.used.outputRows + left.maxOutputRows = quantum.budget.maxOutputRows ∧
    quantum.used.outputBytes + left.maxOutputBytes = quantum.budget.maxOutputBytes := by
  unfold WorkQuantum.remaining at hasLeft
  split at hasLeft
  · cases hasLeft
  · rename_i further
    split at hasLeft
    · rename_i room
      obtain rfl := Option.some.inj hasLeft
      refine ⟨Nat.not_le.mp further, ?_, ?_, ?_, ?_⟩
      · exact Nat.add_sub_cancel' (Nat.le_of_lt room.1)
      · exact Nat.add_sub_cancel' (Nat.le_of_lt room.2.1)
      · exact Nat.add_sub_cancel' (Nat.le_of_lt room.2.2.1)
      · exact Nat.add_sub_cancel' (Nat.le_of_lt room.2.2.2)
    · cases hasLeft

theorem record_ok (usage : WorkUsage) : quantum.record usage = .ok (recorded quantum usage) := by
  have further := (remaining_cases quantum left hasLeft).1
  unfold WorkQuantum.record
  rw [decide_eq_false (Nat.not_le.mpr further)]
  rfl

-- A weight page keeps the quantum within its budget: only the first row of a
-- page may be oversized.
theorem recorded_fits (fits : QuantumFits quantum) {effectWeight : Int} {saved : Option Int} {rowBytes : Nat}
    (small : quantum.used = {} ∨ (rowBytes ≤ left.maxInputBytes ∧ rowBytes ≤ left.maxOutputBytes)) {page : WeightPage}
    (pageFits : WeightPageFits effectWeight saved rowBytes left page) : QuantumFits (recorded quantum page.usage) := by
  obtain ⟨_, inputRows, inputBytes, outputRows, outputBytes⟩ := remaining_cases quantum left hasLeft
  have rowRoom := left.inputRowsPositive
  have pageRows := pageFits.rows
  unfold recorded
  rw [pageFits.usage]
  refine ⟨?_, ⟨?_, ?_⟩, ⟨?_, ?_⟩⟩
  · exact congrArg (· + 1) fits.counted
  · change quantum.used.inputRows + 1 ≤ quantum.budget.maxInputRows
    omega
  · change quantum.used.inputBytes + rowBytes ≤ quantum.budget.maxInputBytes ∨ quantum.used.inputRows + 1 = 1
    rcases small with unused | ⟨fitsInput, _⟩
    · exact .inr (by rw [unused])
    · exact .inl (by omega)
  · change quantum.used.outputRows + page.appliedWeight.natAbs ≤ quantum.budget.maxOutputRows
    omega
  · change quantum.used.outputBytes + rowBytes * page.appliedWeight.natAbs ≤ quantum.budget.maxOutputBytes ∨
      quantum.used.outputRows + page.appliedWeight.natAbs = 1
    by_cases fitsOutput : rowBytes ≤ left.maxOutputBytes
    · have bytes := pageFits.bytes fitsOutput
      exact .inl (by omega)
    · rcases small with unused | ⟨_, fitsOutput'⟩
      · refine .inr ?_
        rw [unused, pageFits.oversized (Nat.lt_of_not_le fitsOutput)]
      · exact absurd fitsOutput' fitsOutput

end Quantum

def effectOf (spec : SinkSpec Row Out) (row : EffectRow Row) : Out × Int := (spec.mapping row.rowValue, row.weight)

-- The weights still to apply when `remaining` is left of the first row.
def pendingOf (spec : SinkSpec Row Out) (remaining : Option Int) : List (EffectRow Row) → List (Out × Int)
  | [] => []
  | row :: rows => (spec.mapping row.rowValue, remaining.getD row.weight) :: rows.map (effectOf spec)

theorem pending_of_start (spec : SinkSpec Row Out) (rows : List (EffectRow Row)) :
    pendingOf spec none rows = rows.map (effectOf spec) := by
  cases rows with
  | nil => rfl
  | cons row rows => rfl

-- What a chunk has left at a continuation; nothing when the chunk is done.
def leftOf (spec : SinkSpec Row Out) (chunk : EffectChunk Row) : Option SinkContinuation → List (Out × Int)
  | none => []
  | some next => pendingOf spec next.remainingWeight (chunk.payload.drop next.position.rowOrdinal)

-- A continuation inside a chunk.
structure CursorIn (streamId : Nat) (chunk : EffectChunk Row) (continuation : SinkContinuation) : Prop where
  position : continuation.position = ⟨streamId, chunk.chunkSeq, continuation.position.rowOrdinal⟩
  inside : continuation.position.rowOrdinal < chunk.payload.length
  suffix : ∀ row, chunk.payload[continuation.position.rowOrdinal]? = some row →
    Suffix row.weight continuation.remainingWeight

section Loop

variable (spec : SinkSpec Row Out) (streamId : Nat) (chunk : EffectChunk Row) (identified : 0 < streamId)
  (numbered : 0 < chunk.chunkSeq)

theorem head_rows (ordinal : Nat) (row : EffectRow Row) (rows : List (EffectRow Row)) :
    headsFrom spec ordinal (row :: rows) = ⟨ordinal, row.weight, spec.rowBytes row⟩ :: headsFrom spec (ordinal + 1) rows := by
  simp [headsFrom, List.zipIdx_cons]

theorem effects_of_cons (action : SinkAction) (actions : List SinkAction) (row : EffectRow Row)
    (found : chunk.payload[action.rowOrdinal]? = some row) :
    effectsOf spec chunk (action :: actions) =
      (spec.mapping row.rowValue, action.appliedWeight) :: effectsOf spec chunk actions := by
  simp [effectsOf, found]

-- The next continuation after a whole row.
def nextRow (ordinal : Nat) : Option SinkContinuation :=
  if ordinal + 1 = chunk.payload.length then none else some ⟨⟨streamId, chunk.chunkSeq, ordinal + 1⟩, none, true⟩

section Head

variable (ordinal : Nat) (row : EffectRow Row) (plan : PagePlan) (current : SinkContinuation) (left : WorkBudget)
  (stands : plan.next = some current) (atRow : current.position.rowOrdinal = ordinal)
  (hasLeft : plan.quantum.remaining = some left) (present : row.weight ≠ 0)
  (suffix : Suffix row.weight current.remainingWeight)

include stands atRow hasLeft

theorem plan_head_stops (heads : List EffectHead) (position : InputPosition)
    (large : plan.quantum.used ≠ {} ∧ (left.maxInputBytes < spec.rowBytes row ∨ left.maxOutputBytes < spec.rowBytes row)) :
    planHeads position chunk.payload.length (⟨ordinal, row.weight, spec.rowBytes row⟩ :: heads) plan = .ok plan := by
  unfold planHeads
  rw [stands, hasLeft]
  simp only [atRow, ne_eq, not_true_eq_false, decide_false, not_refused, ok_bind]
  rw [if_pos large]
  rfl

include identified numbered present suffix

-- One row of the loop: all of its rest, or a part of it that ends the page.
theorem plan_head_ok (heads : List EffectHead)
    (small : ¬ (plan.quantum.used ≠ {} ∧
      (left.maxInputBytes < spec.rowBytes row ∨ left.maxOutputBytes < spec.rowBytes row))) :
    ∃ page, WeightPageFits row.weight current.remainingWeight (spec.rowBytes row) left page ∧
      (current.remainingWeight = none → row.weight.natAbs ≤ left.maxOutputRows →
        spec.rowBytes row * row.weight.natAbs ≤ left.maxOutputBytes → row.weight.natAbs ≤ bigintMax →
        page.remainingWeight = none) ∧
      (∀ rest, page.remainingWeight = some rest → ∀ position : InputPosition, position.streamId = streamId →
        position.chunkSeq = chunk.chunkSeq →
        planHeads position chunk.payload.length (⟨ordinal, row.weight, spec.rowBytes row⟩ :: heads) plan =
          .ok ⟨plan.actions ++ [⟨ordinal, page.appliedWeight⟩], recorded plan.quantum page.usage,
            some ⟨⟨streamId, chunk.chunkSeq, ordinal⟩, some rest, true⟩⟩) ∧
      (page.remainingWeight = none → ∀ position : InputPosition, position.streamId = streamId →
        position.chunkSeq = chunk.chunkSeq →
        planHeads position chunk.payload.length (⟨ordinal, row.weight, spec.rowBytes row⟩ :: heads) plan =
          if (nextRow streamId chunk ordinal).isNone ∨ (recorded plan.quantum page.usage).remaining.isNone then
            .ok ⟨plan.actions ++ [⟨ordinal, page.appliedWeight⟩], recorded plan.quantum page.usage,
              nextRow streamId chunk ordinal⟩
          else planHeads position chunk.payload.length heads ⟨plan.actions ++ [⟨ordinal, page.appliedWeight⟩],
            recorded plan.quantum page.usage, nextRow streamId chunk ordinal⟩) := by
  have measured : 0 < spec.rowBytes row := Nat.succ_pos _
  obtain ⟨page, planned, fits, whole⟩ := weight_page_ok row.weight current.remainingWeight (spec.rowBytes row) left present
    measured suffix
  have isRecorded := record_ok plan.quantum left hasLeft page.usage
  refine ⟨page, fits, ?_, ?_, ?_⟩
  · intro fresh
    rw [fresh] at whole
    exact whole
  · intro rest isRest position sameStream sameChunk
    unfold planHeads
    rw [stands, hasLeft]
    simp only [atRow, ne_eq, not_true_eq_false, decide_false, not_refused, ok_bind]
    rw [if_neg small, planned]
    simp only [ok_bind, isRecorded, isRest, InputPosition.new, sameStream, sameChunk, Nat.ne_of_gt identified,
      Nat.ne_of_gt numbered, decide_false, Bool.or_self, not_refused, pure, Except.pure]
  · intro finished position sameStream sameChunk
    rw [planHeads]
    rw [stands, hasLeft]
    simp only [atRow, ne_eq, not_true_eq_false, decide_false, not_refused, ok_bind]
    rw [if_neg small, planned]
    unfold nextRow
    by_cases last : ordinal + 1 = chunk.payload.length
    · simp only [ok_bind, isRecorded, finished, last, if_true, Option.isNone_none, true_or, pure, Except.pure]
    · simp only [ok_bind, isRecorded, finished, last, if_false, InputPosition.new, sameStream, sameChunk,
        Nat.ne_of_gt identified, Nat.ne_of_gt numbered, decide_false, Bool.or_self, refuse, Bool.false_eq_true,
        Option.isNone_some, false_or, pure, Except.pure]

end Head

-- What the loop has planned when it stops.
structure Planned (before : PagePlan) (current : SinkContinuation) (more : List SinkAction) (quantum : WorkQuantum)
    (next : Option SinkContinuation) : Prop where
  cut : Cut (pendingOf spec current.remainingWeight (chunk.payload.drop current.position.rowOrdinal))
    (effectsOf spec chunk more) (leftOf spec chunk next)
  fits : QuantumFits quantum
  budget : quantum.budget = before.quantum.budget
  rows : quantum.used.outputRows = before.quantum.used.outputRows + units (effectsOf spec chunk more)
  inside : ∀ continuation, next = some continuation →
    CursorIn streamId chunk continuation ∧ ((more = [] ∧ continuation = current) ∨ continuation.persisted = true)
  signed : ∀ action ∈ more, action.appliedWeight ≠ 0
  effective : more ≠ [] → effectsOf spec chunk more ≠ []

theorem row_here {ordinal : Nat} {row : EffectRow Row} {rows : List (EffectRow Row)}
    (isRest : chunk.payload.drop ordinal = row :: rows) :
    chunk.payload[ordinal]? = some row ∧ chunk.payload.drop (ordinal + 1) = rows ∧ ordinal < chunk.payload.length := by
  have inside : ordinal < chunk.payload.length := by
    by_contra outside
    rw [List.drop_eq_nil_of_le (Nat.le_of_not_lt outside)] at isRest
    cases isRest
  rw [List.drop_eq_getElem_cons inside] at isRest
  obtain ⟨isRow, isRows⟩ := List.cons.inj isRest
  exact ⟨by rw [List.getElem?_eq_getElem inside, isRow], isRows, inside⟩

section Planned

variable {ordinal : Nat} (row : EffectRow Row) {rest : List (EffectRow Row)} (plan : PagePlan)
  {current : SinkContinuation} (left : WorkBudget) (stands : plan.next = some current)
  (atRow : current.position.rowOrdinal = ordinal) (cursor : CursorIn streamId chunk current)
  (fits : QuantumFits plan.quantum) (isRest : chunk.payload.drop ordinal = row :: rest)

include isRest

include atRow in
theorem pending_here : pendingOf spec current.remainingWeight (chunk.payload.drop current.position.rowOrdinal) =
    (spec.mapping row.rowValue, current.remainingWeight.getD row.weight) :: rest.map (effectOf spec) := by
  rw [atRow, isRest]
  rfl

omit isRest in
include stands cursor fits in
theorem planned_stop : Planned spec streamId chunk plan current [] plan.quantum plan.next := by
  refine ⟨?_, fits, rfl, rfl, ?_, List.forall_mem_nil _, fun some => absurd rfl some⟩
  · rw [stands]
    exact .stop _
  · intro continuation isNext
    obtain rfl := Option.some.inj (stands.symm.trans isNext)
    exact ⟨cursor, .inl ⟨rfl, rfl⟩⟩

theorem effects_here (applied : Int) (more : List SinkAction) : effectsOf spec chunk (⟨ordinal, applied⟩ :: more) =
    (spec.mapping row.rowValue, applied) :: effectsOf spec chunk more :=
  effects_of_cons spec chunk _ more row (row_here chunk isRest).1

variable (page : WeightPage) (hasLeft : plan.quantum.remaining = some left)
  (small : plan.quantum.used = {} ∨ (spec.rowBytes row ≤ left.maxInputBytes ∧ spec.rowBytes row ≤ left.maxOutputBytes))
  (pageFits : WeightPageFits row.weight current.remainingWeight (spec.rowBytes row) left page)

include atRow pageFits

omit cursor in
include fits hasLeft small in
-- The page ends inside the row.
theorem planned_part (remaining : Int) (isPart : page.remainingWeight = some remaining) :
    Planned spec streamId chunk plan current [⟨ordinal, page.appliedWeight⟩] (recorded plan.quantum page.usage)
      (some ⟨⟨streamId, chunk.chunkSeq, ordinal⟩, some remaining, true⟩) := by
  obtain ⟨found, _, inside⟩ := row_here chunk isRest
  obtain ⟨parts, sameSign, suffix⟩ := pageFits.remaining remaining isPart
  refine ⟨?_, recorded_fits plan.quantum left hasLeft fits small pageFits, rfl, ?_, ?_,
    List.forall_mem_singleton.mpr pageFits.present, ?_⟩
  · rw [pending_here spec chunk row atRow isRest, effects_here spec chunk row isRest, ← parts]
    have isLeft : leftOf spec chunk (some ⟨⟨streamId, chunk.chunkSeq, ordinal⟩, some remaining, true⟩) =
        (spec.mapping row.rowValue, remaining) :: rest.map (effectOf spec) := by
      change pendingOf spec (some remaining) (chunk.payload.drop ordinal) = _
      rw [isRest]
      rfl
    rw [isLeft]
    exact .part _ _ _ _ sameSign
  · rw [effects_here spec chunk row isRest]
    simp [recorded, pageFits.usage, units, effectsOf]
  · intro continuation isNext
    obtain rfl := Option.some.inj isNext
    refine ⟨⟨rfl, inside, ?_⟩, .inr rfl⟩
    intro other isOther
    obtain rfl := Option.some.inj (found.symm.trans isOther)
    exact suffix
  · rw [effects_here spec chunk row isRest]
    exact fun _ => List.cons_ne_nil _ _

-- The page takes the whole row, and then `more`.
theorem planned_whole (isWhole : page.remainingWeight = none) (more : List SinkAction) (quantum : WorkQuantum)
    (next : Option SinkContinuation) (budget : quantum.budget = plan.quantum.budget) (later : QuantumFits quantum)
    (rows : quantum.used.outputRows =
      (recorded plan.quantum page.usage).used.outputRows + units (effectsOf spec chunk more))
    (further : Cut (rest.map (effectOf spec)) (effectsOf spec chunk more) (leftOf spec chunk next))
    (inside : ∀ continuation, next = some continuation → CursorIn streamId chunk continuation ∧
      continuation.persisted = true) (signed : ∀ action ∈ more, action.appliedWeight ≠ 0) :
    Planned spec streamId chunk plan current (⟨ordinal, page.appliedWeight⟩ :: more) quantum next := by
  have all := pageFits.finished isWhole
  refine ⟨?_, later, budget, ?_, fun continuation isNext => ⟨(inside continuation isNext).1, .inr (inside _ isNext).2⟩,
    List.forall_mem_cons.mpr ⟨pageFits.present, signed⟩, ?_⟩
  · rw [pending_here spec chunk row atRow isRest, effects_here spec chunk row isRest, ← all]
    exact .whole _ _ _ _ pageFits.present further
  · rw [rows, effects_here spec chunk row isRest]
    simp only [recorded, pageFits.usage, units, List.map_cons, List.sum_cons]
    omega
  · rw [effects_here spec chunk row isRest]
    exact fun _ => List.cons_ne_nil _ _

end Planned

theorem next_row_cases {ordinal : Nat} (inside : ordinal < chunk.payload.length) :
    (ordinal + 1 = chunk.payload.length ∧ nextRow streamId chunk ordinal = none) ∨
      (ordinal + 1 < chunk.payload.length ∧
        nextRow streamId chunk ordinal = some ⟨⟨streamId, chunk.chunkSeq, ordinal + 1⟩, none, true⟩) := by
  unfold nextRow
  by_cases last : ordinal + 1 = chunk.payload.length
  · exact .inl ⟨last, if_pos last⟩
  · exact .inr ⟨by omega, if_neg last⟩

theorem next_row_inside (ordinal : Nat) (inside : ordinal < chunk.payload.length) (continuation : SinkContinuation)
    (isNext : nextRow streamId chunk ordinal = some continuation) :
    CursorIn streamId chunk continuation ∧ continuation.persisted = true := by
  rcases next_row_cases streamId chunk inside with ⟨_, none⟩ | ⟨further, isSome⟩
  · rw [none] at isNext
    cases isNext
  · obtain rfl := Option.some.inj (isSome.symm.trans isNext)
    refine ⟨⟨rfl, further, ?_⟩, rfl⟩
    intro row found rest isRest
    cases isRest

theorem left_of_next_row (ordinal : Nat) (inside : ordinal < chunk.payload.length) :
    leftOf spec chunk (nextRow streamId chunk ordinal) = (chunk.payload.drop (ordinal + 1)).map (effectOf spec) := by
  rcases next_row_cases streamId chunk inside with ⟨last, none⟩ | ⟨_, isSome⟩
  · rw [none, last, List.drop_length]
    rfl
  · rw [isSome]
    exact pending_of_start spec _

include identified numbered

variable {rows : List (EffectRow Row)} (position : InputPosition)

-- The loop plans a cut of what the chunk has left, and something of it.
theorem plan_heads_ok (sameStream : position.streamId = streamId) (sameChunk : position.chunkSeq = chunk.chunkSeq)
    (rows later : List (EffectRow Row)) (ordinal : Nat) (plan : PagePlan) (current : SinkContinuation)
    (stands : plan.next = some current) (atRow : current.position.rowOrdinal = ordinal)
    (cursor : CursorIn streamId chunk current) (fits : QuantumFits plan.quantum)
    (more : plan.quantum.remaining.isSome = true) (isRest : chunk.payload.drop ordinal = rows ++ later)
    (present : ∀ row ∈ rows, row.weight ≠ 0) :
    ∃ actions quantum next, planHeads position chunk.payload.length (headsFrom spec ordinal rows) plan =
        .ok ⟨plan.actions ++ actions, quantum, next⟩ ∧
      Planned spec streamId chunk plan current actions quantum next ∧
      (plan.quantum.used = {} → rows ≠ [] → actions ≠ []) := by
  induction rows generalizing ordinal plan current with
  | nil =>
      refine ⟨[], plan.quantum, plan.next, ?_, ?_, fun _ present => absurd rfl present⟩
      · simp [headsFrom, planHeads]
      · exact planned_stop spec streamId chunk plan stands cursor fits
  | cons row rows ih =>
      obtain ⟨left, hasLeft⟩ := Option.isSome_iff_exists.mp more
      rw [List.cons_append] at isRest
      obtain ⟨found, isRows, inside⟩ := row_here chunk isRest
      have nonzero := present row List.mem_cons_self
      rw [head_rows]
      by_cases large : plan.quantum.used ≠ {} ∧
          (left.maxInputBytes < spec.rowBytes row ∨ left.maxOutputBytes < spec.rowBytes row)
      · refine ⟨[], plan.quantum, plan.next, ?_, ?_, fun unused => absurd unused large.1⟩
        · rw [plan_head_stops spec chunk ordinal row plan current left stands atRow hasLeft _ position large]
          simp
        · exact planned_stop spec streamId chunk plan stands cursor fits
      · have small : plan.quantum.used = {} ∨
            (spec.rowBytes row ≤ left.maxInputBytes ∧ spec.rowBytes row ≤ left.maxOutputBytes) := by
          by_cases unused : plan.quantum.used = {}
          · exact .inl unused
          · refine .inr ⟨?_, ?_⟩
            · exact Nat.le_of_not_lt fun tooLarge => large ⟨unused, .inl tooLarge⟩
            · exact Nat.le_of_not_lt fun tooLarge => large ⟨unused, .inr tooLarge⟩
        have suffix := cursor.suffix row (atRow ▸ found)
        obtain ⟨page, pageFits, _, partly, wholly⟩ := plan_head_ok spec streamId chunk identified numbered ordinal row plan
          current left stands atRow hasLeft nonzero suffix (headsFrom spec (ordinal + 1) rows) large
        cases isPart : page.remainingWeight with
        | some remaining =>
            refine ⟨[⟨ordinal, page.appliedWeight⟩], _, _, partly remaining isPart position sameStream sameChunk, ?_, by simp⟩
            exact planned_part spec streamId chunk row plan left atRow fits isRest
              page hasLeft small pageFits remaining isPart
        | none =>
            have here := wholly isPart position sameStream sameChunk
            have afterFits := recorded_fits plan.quantum left hasLeft fits small pageFits
            by_cases ends : (nextRow streamId chunk ordinal).isNone ∨
                (recorded plan.quantum page.usage).remaining.isNone
            · rw [if_pos ends] at here
              refine ⟨[⟨ordinal, page.appliedWeight⟩], _, _, here, ?_, by simp⟩
              apply planned_whole spec streamId chunk row plan left atRow isRest page
                pageFits isPart [] (recorded plan.quantum page.usage) _ rfl afterFits rfl
              · rw [left_of_next_row spec streamId chunk ordinal inside, isRows]
                exact .stop _
              · exact next_row_inside streamId chunk ordinal inside
              · intro action member
                cases member
            · rw [if_neg ends] at here
              rw [not_or] at ends
              rcases next_row_cases streamId chunk inside with ⟨_, none⟩ | ⟨further, isNext⟩
              · rw [none] at ends
                exact absurd rfl ends.1
              · rw [isNext] at here
                obtain ⟨nextInside, _⟩ := next_row_inside streamId chunk ordinal inside _ isNext
                obtain ⟨actions, quantum, next, ran, planned, _⟩ := ih (ordinal + 1)
                  ⟨plan.actions ++ [⟨ordinal, page.appliedWeight⟩], recorded plan.quantum page.usage,
                    some ⟨⟨streamId, chunk.chunkSeq, ordinal + 1⟩, none, true⟩⟩ _ rfl rfl nextInside afterFits
                  (by simpa [Option.isSome_iff_ne_none] using ends.2) isRows (fun row member => present row (List.mem_cons_of_mem _ member))
                refine ⟨⟨ordinal, page.appliedWeight⟩ :: actions, quantum, next, ?_, ?_, by simp⟩
                · rw [here, ran, List.append_assoc]
                  rfl
                · have cut := planned.cut
                  rw [pending_of_start, isRows] at cut
                  apply planned_whole spec streamId chunk row plan left atRow
                    isRest page pageFits isPart actions quantum next planned.budget planned.fits
                    planned.rows cut ?_ planned.signed
                  intro continuation isContinuation
                  obtain ⟨cursorIn, ⟨_, rfl⟩ | persisted⟩ := planned.inside continuation isContinuation
                  · exact ⟨cursorIn, rfl⟩
                  · exact ⟨cursorIn, persisted⟩

-- Room for rows of a chunk in what a quantum has left.
structure Room (rows : List (EffectRow Row)) (quantum : WorkQuantum) : Prop where
  transitions : quantum.transitions + rows.length ≤ quantum.maxTransitions
  inputRows : quantum.used.inputRows + rows.length ≤ quantum.budget.maxInputRows
  inputBytes : quantum.used.inputBytes + (rows.map spec.rowBytes).sum < quantum.budget.maxInputBytes
  outputRows : quantum.used.outputRows + (rows.map fun row => row.weight.natAbs).sum < quantum.budget.maxOutputRows
  outputBytes : quantum.used.outputBytes + (rows.map fun row => spec.rowBytes row * row.weight.natAbs).sum <
    quantum.budget.maxOutputBytes

omit identified numbered in
theorem room_remaining {row : EffectRow Row} {quantum : WorkQuantum} (room : Room spec (row :: rows) quantum) :
    ∃ left, quantum.remaining = some left := by
  have transitions := room.transitions
  have inputRows := room.inputRows
  have inputBytes := room.inputBytes
  have outputRows := room.outputRows
  have outputBytes := room.outputBytes
  rw [List.length_cons] at transitions inputRows
  refine ⟨_, (if_neg (by omega)).trans (dif_pos ⟨?_, ?_, ?_, ?_⟩)⟩
  · omega
  · omega
  · omega
  · omega

omit identified numbered in
theorem room_after {row : EffectRow Row} {quantum : WorkQuantum} (room : Room spec (row :: rows) quantum) : Room spec rows
      (recorded quantum ⟨1, spec.rowBytes row, row.weight.natAbs, spec.rowBytes row * row.weight.natAbs⟩) := by
  obtain ⟨transitions, inputRows, inputBytes, outputRows, outputBytes⟩ := room
  simp only [List.map_cons, List.sum_cons, List.length_cons] at transitions inputRows inputBytes outputRows outputBytes
  refine ⟨?_, ?_, ?_, ?_, ?_⟩
  · change quantum.transitions + 1 + rows.length ≤ quantum.maxTransitions
    omega
  · change quantum.used.inputRows + 1 + rows.length ≤ quantum.budget.maxInputRows
    omega
  · change quantum.used.inputBytes + spec.rowBytes row + (rows.map spec.rowBytes).sum < quantum.budget.maxInputBytes
    omega
  · change quantum.used.outputRows + row.weight.natAbs + (rows.map fun row => row.weight.natAbs).sum <
      quantum.budget.maxOutputRows
    omega
  · change quantum.used.outputBytes + spec.rowBytes row * row.weight.natAbs +
      (rows.map fun row => spec.rowBytes row * row.weight.natAbs).sum < quantum.budget.maxOutputBytes
    omega

variable (sameStream : position.streamId = streamId) (sameChunk : position.chunkSeq = chunk.chunkSeq)
  (row : EffectRow Row) (rows later : List (EffectRow Row)) (ordinal : Nat) (planned : List SinkAction)
  (quantum : WorkQuantum) (persisted : Bool) (isRest : chunk.payload.drop ordinal = row :: (rows ++ later))

include sameStream sameChunk isRest

-- With room for it a row is planned whole.
theorem plan_row_whole (nonzero : row.weight ≠ 0) (bounded : row.weight.natAbs ≤ bigintMax)
    (room : Room spec (row :: rows) quantum) :
    ∃ after, recorded quantum ⟨1, spec.rowBytes row, row.weight.natAbs, spec.rowBytes row * row.weight.natAbs⟩ = after ∧
      planHeads position chunk.payload.length (headsFrom spec ordinal (row :: rows))
          ⟨planned, quantum, some ⟨⟨streamId, chunk.chunkSeq, ordinal⟩, none, persisted⟩⟩ =
        (if (nextRow streamId chunk ordinal).isNone ∨ after.remaining.isNone then
          .ok ⟨planned ++ [⟨ordinal, row.weight⟩], after, nextRow streamId chunk ordinal⟩
        else planHeads position chunk.payload.length (headsFrom spec (ordinal + 1) rows)
          ⟨planned ++ [⟨ordinal, row.weight⟩], after, nextRow streamId chunk ordinal⟩) ∧
      ∀ more, effectsOf spec chunk (⟨ordinal, row.weight⟩ :: more) = effectOf spec row :: effectsOf spec chunk more := by
  obtain ⟨left, hasLeft⟩ := room_remaining spec room
  obtain ⟨_, inputRows, inputBytes, outputRows, outputBytes⟩ := remaining_cases quantum left hasLeft
  have inputRoom := room.inputBytes
  have rowRoom := room.outputRows
  have byteRoom := room.outputBytes
  simp only [List.map_cons, List.sum_cons] at inputRoom rowRoom byteRoom
  have one : spec.rowBytes row ≤ spec.rowBytes row * row.weight.natAbs :=
    Nat.le_mul_of_pos_right _ (Int.natAbs_pos.mpr nonzero)
  have small : ¬ (quantum.used ≠ {} ∧
      (left.maxInputBytes < spec.rowBytes row ∨ left.maxOutputBytes < spec.rowBytes row)) := by
    intro large
    omega
  obtain ⟨page, pageFits, whole, _, wholly⟩ := plan_head_ok spec streamId chunk identified numbered ordinal row
    ⟨planned, quantum, some ⟨⟨streamId, chunk.chunkSeq, ordinal⟩, none, persisted⟩⟩ _ left rfl rfl hasLeft nonzero
    (by intro rest isRest; cases isRest) (headsFrom spec (ordinal + 1) rows) small
  have isWhole := whole rfl (by omega) (by omega) bounded
  have isApplied : page.appliedWeight = row.weight := pageFits.finished isWhole
  have here := wholly isWhole position sameStream sameChunk
  rw [pageFits.usage, isApplied] at here
  refine ⟨_, rfl, ?_, ?_⟩
  · rw [head_rows]
    exact here
  · intro more
    exact effects_of_cons spec chunk _ more row (row_here chunk isRest).1

-- With room for all of them the loop plans all its rows whole.
theorem plan_heads_whole (present : ∀ each ∈ row :: rows, each.weight ≠ 0)
    (bounded : ∀ each ∈ row :: rows, each.weight.natAbs ≤ bigintMax) (room : Room spec (row :: rows) quantum) :
    ∃ actions used, planHeads position chunk.payload.length (headsFrom spec ordinal (row :: rows))
        ⟨planned, quantum, some ⟨⟨streamId, chunk.chunkSeq, ordinal⟩, none, persisted⟩⟩ =
        .ok ⟨planned ++ actions, used, nextRow streamId chunk (ordinal + rows.length)⟩ ∧
      effectsOf spec chunk actions = (row :: rows).map (effectOf spec) := by
  induction rows generalizing row ordinal planned quantum persisted with
  | nil =>
      obtain ⟨after, isAfter, here, effects⟩ := plan_row_whole spec streamId chunk identified numbered position sameStream
        sameChunk row [] later ordinal planned quantum persisted isRest (present row List.mem_cons_self)
        (bounded row List.mem_cons_self) room
      refine ⟨[⟨ordinal, row.weight⟩], after, ?_, effects []⟩
      rw [here]
      split
      · rfl
      · simp [headsFrom, planHeads]
  | cons second rows ih =>
      obtain ⟨after, isAfter, here, effects⟩ := plan_row_whole spec streamId chunk identified numbered position sameStream
        sameChunk row (second :: rows) later ordinal planned quantum persisted isRest (present row List.mem_cons_self)
        (bounded row List.mem_cons_self) room
      obtain ⟨_, isRows, inside⟩ := row_here chunk isRest
      have further := room_after spec room
      rw [isAfter] at further
      obtain ⟨left, hasLeft⟩ := room_remaining spec further
      obtain ⟨_, _, onward⟩ := row_here chunk isRows
      rcases next_row_cases streamId chunk inside with ⟨last, _⟩ | ⟨_, isNext⟩
      · omega
      · obtain ⟨actions, used, ran, same⟩ := ih second (ordinal + 1) (planned ++ [⟨ordinal, row.weight⟩]) _ true isRows
          (fun each member => present each (List.mem_cons_of_mem _ member))
          (fun each member => bounded each (List.mem_cons_of_mem _ member)) further
        refine ⟨⟨ordinal, row.weight⟩ :: actions, used, ?_, ?_⟩
        · rw [here, isNext, hasLeft]
          simp only [Option.isNone_some, Bool.false_eq_true, or_self, if_false]
          rw [ran, List.append_assoc, List.length_cons, Nat.add_assoc, Nat.add_comm 1]
          rfl
        · rw [effects, same]
          rfl

end Loop

end Shiba.Sink
