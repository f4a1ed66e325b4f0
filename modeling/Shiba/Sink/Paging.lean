import Shiba.Sink.Checked
import Shiba.Execution.Usage

set_option autoImplicit false

namespace Shiba.Sink

open Copies Weighted Shiba.Stream Shiba.Execution Shiba.Linear

section Loop

variable (chunk : WeightedChunk)

-- The next continuation after a whole effect.
def afterEffect (ordinal : Nat) : Option SinkContinuation :=
  if ordinal + 1 = chunk.effects.length then none else some ⟨⟨chunk.streamId, chunk.chunkSeq, ordinal + 1⟩, none, true⟩

-- Both loops go on in the same way.
def bothLoops (position : InputPosition) (heads : List EffectHead) (plan : PagePlan) (result : Except Fault PagePlan) : Prop :=
  planHeadsChecked position chunk.effects.length heads plan = result ∧ planHeads position chunk.effects.length heads plan = result

theorem effect_here {ordinal : Nat} {effect : Effect} {rest : List Effect} (isRest : chunk.effects.drop ordinal = effect :: rest) :
    chunk.effects[ordinal]? = some effect ∧ chunk.effects.drop (ordinal + 1) = rest ∧ ordinal < chunk.effects.length := by
  have inside : ordinal < chunk.effects.length := by
    by_contra outside
    rw [List.drop_eq_nil_of_le (Nat.le_of_not_lt outside)] at isRest
    cases isRest
  rw [List.drop_eq_getElem_cons inside] at isRest
  obtain ⟨isEffect, isRest⟩ := List.cons.inj isRest
  exact ⟨by rw [List.getElem?_eq_getElem inside, isEffect], isRest, inside⟩

theorem pending_at (continuation : SinkContinuation) (effect : Effect) (rest : List Effect)
    (isRest : chunk.effects.drop continuation.position.rowOrdinal = effect :: rest) :
    chunk.pending (some continuation) = (continuation.position.rowOrdinal, continuation.remainingWeight.getD effect.weight) ::
      numberedWeights (continuation.position.rowOrdinal + 1) rest := by
  rw [WeightedChunk.pending]
  simp only [isRest]

theorem pending_after (ordinal : Nat) (inside : ordinal < chunk.effects.length) :
    chunk.pending (afterEffect chunk ordinal) = numberedWeights (ordinal + 1) (chunk.effects.drop (ordinal + 1)) := by
  unfold afterEffect
  by_cases last : ordinal + 1 = chunk.effects.length
  · rw [if_pos last, last, List.drop_length]
    rfl
  · rw [if_neg last]
    cases isRest : chunk.effects.drop (ordinal + 1) with
    | nil =>
        rw [List.drop_eq_nil_iff] at isRest
        omega
    | cons effect rest =>
        rw [pending_at chunk _ effect rest isRest, numbered_weights_cons]
        rfl

theorem cursor_after (ordinal : Nat) (inside : ordinal < chunk.effects.length) (continuation : SinkContinuation)
    (isNext : afterEffect chunk ordinal = some continuation) : CursorAt chunk continuation := by
  unfold afterEffect at isNext
  by_cases last : ordinal + 1 = chunk.effects.length
  · rw [if_pos last] at isNext
    cases isNext
  · rw [if_neg last] at isNext
    obtain rfl := Option.some.inj isNext
    refine ⟨rfl, ?_, ?_⟩
    · change ordinal + 1 < chunk.effects.length
      omega
    · intro effect found rest isRest
      cases isRest

section Head

variable (ordinal : Nat) (effect : Effect) (plan : PagePlan) (current : SinkContinuation) (left : WorkBudget)
  (stands : plan.next = some current) (atRow : current.position.rowOrdinal = ordinal)
  (hasLeft : plan.quantum.remaining = some left)

include stands atRow hasLeft

theorem effect_stops (heads : List EffectHead) (position : InputPosition)
    (large : plan.quantum.used ≠ {} ∧ (left.maxInputBytes < effect.rowBytes ∨ left.maxOutputBytes < effect.rowBytes)) :
    bothLoops chunk position (⟨ordinal, effect.weight, effect.rowBytes⟩ :: heads) plan (.ok plan) := by
  constructor
  · rw [planHeadsChecked]
    rw [stands, hasLeft]
    simp only [atRow, ne_eq, not_true_eq_false, decide_false, not_refused, ok_bind]
    rw [if_pos large]
    rfl
  · rw [planHeads]
    rw [stands, hasLeft]
    simp only [atRow, ne_eq, not_true_eq_false, decide_false, not_refused, ok_bind]
    rw [if_pos large]
    rfl

variable (inside : ordinal < chunk.effects.length) (nonzero : effect.weight ≠ 0) (bigint : isBigint effect.weight = true)
  (measured : 0 < effect.rowBytes) (sized : effect.rowBytes ≤ bigintMax) (suffix : Suffix effect.weight current.remainingWeight)
  (budget : Sized plan.quantum.budget)
  (room : ¬ (plan.quantum.used ≠ {} ∧ (left.maxInputBytes < effect.rowBytes ∨ left.maxOutputBytes < effect.rowBytes)))

include inside nonzero bigint measured sized suffix budget room

-- One effect of the loop: all of its rest, or a part of it that ends the page.
theorem effect_planned (heads : List EffectHead) (position : InputPosition) (sameStream : position.streamId = chunk.streamId)
    (sameChunk : position.chunkSeq = chunk.chunkSeq) :
    ∃ page, WeightPageFits effect.weight current.remainingWeight effect.rowBytes left page ∧
      (∀ rest, page.remainingWeight = some rest →
        bothLoops chunk position (⟨ordinal, effect.weight, effect.rowBytes⟩ :: heads) plan
          (.ok ⟨plan.actions ++ [⟨ordinal, page.appliedWeight⟩], recorded plan.quantum page.usage,
            some ⟨⟨chunk.streamId, chunk.chunkSeq, ordinal⟩, some rest, true⟩⟩)) ∧
      (page.remainingWeight = none → ∀ result,
        ((afterEffect chunk ordinal).isNone ∨ (recorded plan.quantum page.usage).remaining.isNone →
          result = .ok ⟨plan.actions ++ [⟨ordinal, page.appliedWeight⟩], recorded plan.quantum page.usage, afterEffect chunk ordinal⟩) →
        (¬ ((afterEffect chunk ordinal).isNone ∨ (recorded plan.quantum page.usage).remaining.isNone) →
          bothLoops chunk position heads ⟨plan.actions ++ [⟨ordinal, page.appliedWeight⟩], recorded plan.quantum page.usage,
            afterEffect chunk ordinal⟩ result) →
        bothLoops chunk position (⟨ordinal, effect.weight, effect.rowBytes⟩ :: heads) plan result) := by
  have identified := Nat.ne_of_gt chunk.identified
  have numbered := Nat.ne_of_gt chunk.numbered
  have small : plan.quantum.used = {} ∨ (effect.rowBytes ≤ left.maxInputBytes ∧ effect.rowBytes ≤ left.maxOutputBytes) := by
    by_cases unused : plan.quantum.used = {}
    · exact .inl unused
    · refine .inr ⟨?_, ?_⟩
      · exact Nat.le_of_not_lt fun tooLarge => room ⟨unused, .inl tooLarge⟩
      · exact Nat.le_of_not_lt fun tooLarge => room ⟨unused, .inr tooLarge⟩
  have outBytes : left.maxOutputBytes ≤ u64Max := by
    have parts := remaining_cases plan.quantum left hasLeft
    have all := budget.outputBytes
    omega
  obtain ⟨page, planned, checked, fits, output⟩ := weight_page_checked nonzero bigint measured sized suffix outBytes
  have isRecorded := record_ok plan.quantum left hasLeft page.usage
  have isChecked := record_checked hasLeft budget sized small fits output
  have last : ordinal ≠ bigintMax := by
    have rows := chunk.counted
    omega
  refine ⟨page, fits, ?_, ?_⟩
  · intro rest isRest
    constructor
    · rw [planHeadsChecked]
      rw [stands, hasLeft]
      simp only [atRow, ne_eq, not_true_eq_false, decide_false, not_refused, ok_bind]
      rw [if_neg room, checked]
      simp only [ok_bind, isChecked, isRest, InputPosition.new, sameStream, sameChunk, identified, numbered, decide_false,
        Bool.or_self, not_refused, pure, Except.pure]
    · rw [planHeads]
      rw [stands, hasLeft]
      simp only [atRow, ne_eq, not_true_eq_false, decide_false, not_refused, ok_bind]
      rw [if_neg room, planned]
      simp only [ok_bind, isRecorded, isRest, InputPosition.new, sameStream, sameChunk, identified, numbered, decide_false,
        Bool.or_self, not_refused, pure, Except.pure]
  · intro whole result stops goes
    unfold bothLoops at goes ⊢
    rw [planHeadsChecked, planHeads]
    rw [stands, hasLeft]
    simp only [atRow, ne_eq, not_true_eq_false, decide_false, not_refused, ok_bind]
    rw [if_neg room, if_neg room, planned, checked]
    simp only [ok_bind, isRecorded, isChecked, whole, last, InputPosition.new, sameStream, sameChunk, identified, numbered,
      decide_false, Bool.or_self, not_refused, pure, Except.pure]
    by_cases final : ordinal + 1 = chunk.effects.length
    · have ended : afterEffect chunk ordinal = none := by
        rw [afterEffect, if_pos final]
      rw [if_pos final, if_pos final, stops (.inl (by rw [ended]; rfl)), ended]
      exact ⟨rfl, rfl⟩
    · have onward : afterEffect chunk ordinal = some ⟨⟨chunk.streamId, chunk.chunkSeq, ordinal + 1⟩, none, true⟩ := by
        rw [afterEffect, if_neg final]
      rw [if_neg final, if_neg final, ← onward]
      by_cases spent : (recorded plan.quantum page.usage).remaining.isNone
      · rw [if_pos spent, if_pos spent, stops (.inr spent)]
        exact ⟨rfl, rfl⟩
      · rw [if_neg spent, if_neg spent]
        apply goes
        rw [not_or, onward]
        exact ⟨by rw [Option.isNone_some]; exact Bool.false_ne_true, spent⟩

end Head

-- What the loop has planned when it stops.
structure PlannedPage (before : PagePlan) (current : SinkContinuation) (actions : List SinkAction) (quantum : WorkQuantum)
    (next : Option SinkContinuation) : Prop where
  cut : Cut (chunk.pending (some current)) (slices actions) (chunk.pending next)
  fits : QuantumFits quantum
  budget : quantum.budget = before.quantum.budget
  inside : ∀ continuation, next = some continuation → CursorAt chunk continuation

-- The loop on machine integers is the loop, and it plans a cut of what is pending.
theorem plan_heads_checked (position : InputPosition) (sameStream : position.streamId = chunk.streamId)
    (sameChunk : position.chunkSeq = chunk.chunkSeq) (rows later : List Effect) (ordinal : Nat) (plan : PagePlan)
    (current : SinkContinuation) (stands : plan.next = some current) (atRow : current.position.rowOrdinal = ordinal)
    (cursor : CursorAt chunk current) (fits : QuantumFits plan.quantum) (budget : Sized plan.quantum.budget)
    (more : plan.quantum.remaining.isSome = true) (isRest : chunk.effects.drop ordinal = rows ++ later) :
    ∃ actions quantum next, bothLoops chunk position (headsOf ordinal rows) plan (.ok ⟨plan.actions ++ actions, quantum, next⟩) ∧
      PlannedPage chunk plan current actions quantum next ∧ (plan.quantum.used = {} → rows ≠ [] → actions ≠ []) := by
  have stopped : PlannedPage chunk plan current [] plan.quantum plan.next := by
    refine ⟨?_, fits, rfl, ?_⟩
    · rw [stands]
      exact .stop _
    · intro continuation isNext
      obtain rfl := Option.some.inj (stands.symm.trans isNext)
      exact cursor
  induction rows generalizing ordinal plan current with
  | nil =>
      refine ⟨[], plan.quantum, plan.next, ⟨?_, ?_⟩, stopped, fun _ some => absurd rfl some⟩
      · rw [List.append_nil]
        rfl
      · rw [List.append_nil]
        rfl
  | cons effect rows ih =>
      obtain ⟨left, hasLeft⟩ := Option.isSome_iff_exists.mp more
      rw [List.cons_append] at isRest
      obtain ⟨found, isRows, inside⟩ := effect_here chunk isRest
      have member := List.mem_of_getElem? found
      rw [heads_of_cons]
      by_cases large : plan.quantum.used ≠ {} ∧ (left.maxInputBytes < effect.rowBytes ∨ left.maxOutputBytes < effect.rowBytes)
      · refine ⟨[], plan.quantum, plan.next, ?_, stopped, fun unused => absurd unused large.1⟩
        rw [List.append_nil]
        exact effect_stops chunk ordinal effect plan current left stands atRow hasLeft _ position large
      · obtain ⟨page, pageFits, partly, wholly⟩ := effect_planned chunk ordinal effect plan current left stands atRow hasLeft inside
          (chunk.present effect member) (chunk.bigint effect member) (chunk.measured effect member) (chunk.sized effect member)
          (cursor.suffix effect (atRow ▸ found)) budget large (headsOf (ordinal + 1) rows) position sameStream sameChunk
        have small : plan.quantum.used = {} ∨ (effect.rowBytes ≤ left.maxInputBytes ∧ effect.rowBytes ≤ left.maxOutputBytes) := by
          by_cases unused : plan.quantum.used = {}
          · exact .inl unused
          · refine .inr ⟨?_, ?_⟩
            · exact Nat.le_of_not_lt fun tooLarge => large ⟨unused, .inl tooLarge⟩
            · exact Nat.le_of_not_lt fun tooLarge => large ⟨unused, .inr tooLarge⟩
        have afterFits := recorded_fits plan.quantum left hasLeft fits small pageFits
        have here := pending_at chunk current effect (rows ++ later) (atRow ▸ isRest)
        rw [atRow] at here
        cases isPart : page.remainingWeight with
        | some remaining =>
            obtain ⟨parts, sameSign, part⟩ := pageFits.remaining remaining isPart
            refine ⟨[⟨ordinal, page.appliedWeight⟩], _, _, partly remaining isPart, ⟨?_, afterFits, rfl, ?_⟩,
              fun _ _ => List.cons_ne_nil _ _⟩
            · rw [here, ← parts, pending_at chunk _ effect (rows ++ later) isRest]
              exact .part _ _ _ _ sameSign
            · intro continuation isNext
              obtain rfl := Option.some.inj isNext
              refine ⟨rfl, inside, ?_⟩
              intro other isOther
              obtain rfl := Option.some.inj (found.symm.trans isOther)
              exact part
        | none =>
            have all := pageFits.finished isPart
            rw [← all] at here
            by_cases ends : (afterEffect chunk ordinal).isNone ∨ (recorded plan.quantum page.usage).remaining.isNone
            · refine ⟨[⟨ordinal, page.appliedWeight⟩], _, _, wholly isPart _ (fun _ => rfl) (fun goes => absurd ends goes),
                ⟨?_, afterFits, rfl, cursor_after chunk ordinal inside⟩, fun _ _ => List.cons_ne_nil _ _⟩
              rw [here, pending_after chunk ordinal inside, isRows]
              exact .whole _ _ _ _ pageFits.present (.stop _)
            · have onward := ends
              rw [not_or] at onward
              have continues : afterEffect chunk ordinal ≠ none := by
                intro absent
                exact onward.1 (by rw [absent]; rfl)
              obtain ⟨next, isNext⟩ := Option.ne_none_iff_exists'.mp continues
              have nextCursor := cursor_after chunk ordinal inside next isNext
              have nextRow : next.position.rowOrdinal = ordinal + 1 := by
                unfold afterEffect at isNext
                split at isNext
                · cases isNext
                · obtain rfl := Option.some.inj isNext
                  rfl
              have goesOn : (recorded plan.quantum page.usage).remaining.isSome = true := by
                rw [Option.isSome_iff_ne_none]
                intro none
                exact onward.2 (by rw [none]; rfl)
              have nextStopped : PlannedPage chunk ⟨plan.actions ++ [⟨ordinal, page.appliedWeight⟩], recorded plan.quantum page.usage,
                  some next⟩ next [] (recorded plan.quantum page.usage) (some next) := by
                refine ⟨.stop _, afterFits, rfl, ?_⟩
                intro continuation same
                obtain rfl := Option.some.inj same
                exact nextCursor
              obtain ⟨actions, quantum, final, ran, planned, _⟩ := ih (ordinal + 1)
                ⟨plan.actions ++ [⟨ordinal, page.appliedWeight⟩], recorded plan.quantum page.usage, some next⟩ next rfl nextRow
                nextCursor afterFits budget goesOn isRows nextStopped
              refine ⟨⟨ordinal, page.appliedWeight⟩ :: actions, quantum, final, ?_, ⟨?_, planned.fits, planned.budget, planned.inside⟩,
                fun _ _ => List.cons_ne_nil _ _⟩
              · apply wholly isPart
                · intro stops
                  exact absurd stops ends
                · intro _
                  rw [isNext]
                  rw [List.append_assoc] at ran
                  exact ran
              · have cut := planned.cut
                rw [← isNext, pending_after chunk ordinal inside, isRows] at cut
                rw [here]
                exact .whole _ _ _ _ pageFits.present cut

end Loop

end Shiba.Sink
