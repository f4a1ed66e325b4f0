import Shiba.Join.StepBudget
import Shiba.Execution.Usage

set_option autoImplicit false

namespace Shiba.Join

open Shiba.Execution Portions

section

variable {Row : Type} [DecidableEq Row] (spec : JoinSpec Row)

-- The pending output after a transition: everything the step has emitted.
def OutputTarget.grown (output : OutputTarget) (rows bytes : Nat) : OutputTarget :=
  { output with pending := pendingOf rows bytes }

-- A row that is appended behind others has to fit the target with them.
theorem append_output_cases {output : OutputTarget} {usedRows usedBytes : Nat} {actions : List OutputAction}
    (pending : output.pending = pendingOf usedRows usedBytes) (empty : usedRows = 0 → usedBytes = 0)
    (measured : actions ≠ [] → 0 < actionBytes actions)
    (rowsFit : usedRows + actions.length ≤ output.targetRows) (rowsWord : usedRows + actions.length ≤ u64Max)
    (bytesWord : usedBytes + actionBytes actions ≤ u64Max) :
    (appendOutput output actions = .ok (output.grown (usedRows + actions.length) (usedBytes + actionBytes actions)) ∧
        (usedRows = 0 ∨ actions = [] ∨ usedBytes + actionBytes actions ≤ output.targetBytes)) ∨
      0 < usedRows ∧ actions ≠ [] ∧ output.targetBytes < usedBytes + actionBytes actions ∧
        appendOutput output actions = .error (.failed "pending output exceeded its immutable chunk target") := by
  by_cases some : actions = []
  · left
    subst some
    refine ⟨?_, .inr (.inl rfl)⟩
    rw [appendOutput, if_pos rfl]
    unfold OutputTarget.grown
    rw [List.length_nil, actionBytes, List.map_nil, List.sum_nil, Nat.add_zero, Nat.add_zero, ← pending]
  · have bytes := measured some
    have rows := List.length_pos_iff.mpr some
    have present : (decide (actions.length = 0) || decide (actionBytes actions = 0)) = false := by
      rw [Bool.or_eq_false_iff]
      exact ⟨decide_eq_false (by omega), decide_eq_false (by omega)⟩
    by_cases first : usedRows = 0
    · left
      refine ⟨?_, .inl first⟩
      have free : output.pending = none := by
        rw [pending, first]
        rfl
      rw [appendOutput, if_neg some, outputAppendTarget, refuse_false present, ok_bind, free]
      change recordOutputAppend output .new _ _ = _
      rw [recordOutputAppend, refuse_false present, ok_bind, empty first, first, Nat.zero_add, Nat.zero_add]
      unfold OutputTarget.grown pendingOf
      rw [if_neg (by omega)]
      rfl
    · have held : output.pending = Option.some ⟨usedRows, usedBytes⟩ := by
        rw [pending, pendingOf, if_neg first]
      have combinedRows := checked_u64_ok usedRows actions.length "open output chunk row count overflow" rowsWord
      have combinedBytes := checked_u64_ok usedBytes (actionBytes actions) "open output chunk byte count overflow" bytesWord
      have target : outputAppendTarget output actions.length (actionBytes actions) =
          (refuse (!(decide (usedRows + actions.length ≤ output.targetRows) &&
            decide (usedBytes + actionBytes actions ≤ output.targetBytes)))
            "pending output exceeded its immutable chunk target" >>= fun _ => .ok (.extend usedRows usedBytes)) := by
        rw [outputAppendTarget, refuse_false present, ok_bind, held]
        simp only [combinedRows, combinedBytes, ok_bind]
        rfl
      by_cases fits : usedBytes + actionBytes actions ≤ output.targetBytes
      · left
        refine ⟨?_, .inr (.inr fits)⟩
        have accepted : (!(decide (usedRows + actions.length ≤ output.targetRows) &&
            decide (usedBytes + actionBytes actions ≤ output.targetBytes))) = false := by
          rw [decide_eq_true rowsFit, decide_eq_true fits]
          rfl
        have same : decide (output.pending ≠ Option.some ⟨usedRows, usedBytes⟩) = false :=
          decide_eq_false (not_not.mpr held)
        rw [appendOutput, if_neg some, target, refuse_false accepted, ok_bind, ok_bind, recordOutputAppend,
          refuse_false present, ok_bind]
        simp only [refuse_false same, combinedRows, combinedBytes, ok_bind]
        unfold OutputTarget.grown pendingOf
        rw [if_neg (by omega)]
        rfl
      · right
        refine ⟨by omega, some, by omega, ?_⟩
        have refused : (!(decide (usedRows + actions.length ≤ output.targetRows) &&
            decide (usedBytes + actionBytes actions ≤ output.targetBytes))) = true := by
          rw [decide_eq_false fits, Bool.and_false]
          rfl
        rw [appendOutput, if_neg some, target, refused]
        rfl

theorem checked_usage_ok (used more : Nat) (dimension : String) (word : used + more ≤ u64Max) :
    checkedUsage used more dimension = .ok (used + more) := by
  have fits : Shiba.Execution.checkedU64 (used + more) = some (used + more) := if_pos word
  rw [checkedUsage, fits]

def WorkUsage.plus (used more : WorkUsage) : WorkUsage :=
  ⟨used.inputRows + more.inputRows, used.inputBytes + more.inputBytes, used.outputRows + more.outputRows,
    used.outputBytes + more.outputBytes⟩

theorem record_ok (quantum : WorkQuantum) (usage : WorkUsage) (some : quantum.transitions < quantum.maxTransitions)
    (inputRows : quantum.used.inputRows + usage.inputRows ≤ u64Max)
    (inputBytes : quantum.used.inputBytes + usage.inputBytes ≤ u64Max)
    (outputRows : quantum.used.outputRows + usage.outputRows ≤ u64Max)
    (outputBytes : quantum.used.outputBytes + usage.outputBytes ≤ u64Max) :
    quantum.record usage =
      .ok { quantum with used := WorkUsage.plus quantum.used usage, transitions := quantum.transitions + 1 } := by
  have free : decide (quantum.maxTransitions ≤ quantum.transitions) = false := decide_eq_false (by omega)
  rw [WorkQuantum.record, refuse_false free, ok_bind, WorkUsage.checkedAdd, checked_usage_ok _ _ _ inputRows, ok_bind,
    checked_usage_ok _ _ _ inputBytes, ok_bind, checked_usage_ok _ _ _ outputRows, ok_bind,
    checked_usage_ok _ _ _ outputBytes, ok_bind]
  rfl

theorem sound_transits (budget left : WorkBudget) (bounded : Bounded budget) (loop : LoopState Row) (sound : loop.Sound spec budget)
    (opened : loop.quantum.remaining = some left) : ∃ next usage actions again, Transits spec loop left next usage actions again := by
  cases sound.consistent with
  | idle free settled =>
      cases sound.offered with
      | idle _ some offered =>
          obtain ⟨next, moves⟩ := idle_transits loop left sound.consistent free some offered
          exact ⟨next, {}, [], true, moves⟩
      | within current rest here _ _ _ =>
          rw [free] at here
          cases here
  | scanning current progress entries outputs pending done rest scan continued =>
      obtain ⟨next, usage, actions, moves⟩ := candidates_transits bounded sound opened scan.here scan.underway continued
      exact ⟨next, usage, actions, true, moves⟩
  | scanned current progress entries outputs done scan continued =>
      exact finalize_transits sound opened scan.here scan.underway continued

omit [DecidableEq Row] in
theorem remaining_open {quantum : WorkQuantum} {left : WorkBudget} (opened : quantum.remaining = some left) :
    quantum.Open ∧ left.maxInputRows = quantum.budget.maxInputRows - quantum.used.inputRows ∧
      left.maxInputBytes = quantum.budget.maxInputBytes - quantum.used.inputBytes ∧
      left.maxOutputRows = quantum.budget.maxOutputRows - quantum.used.outputRows ∧
      left.maxOutputBytes = quantum.budget.maxOutputBytes - quantum.used.outputBytes := by
  unfold WorkQuantum.remaining at opened
  by_cases isOpen : quantum.Open
  · rw [dif_pos isOpen] at opened
    obtain rfl := Option.some.inj opened
    exact ⟨isOpen, rfl, rfl, rfl, rfl⟩
  · rw [dif_neg isOpen] at opened
    cases opened

def WorkQuantum.after (quantum : WorkQuantum) (usage : WorkUsage) : WorkQuantum :=
  { quantum with used := WorkUsage.plus quantum.used usage, transitions := quantum.transitions + 1 }

-- One round: what its transition takes of the quantum, and where its output goes.
structure Rounds (budget left : WorkBudget) (loop : LoopState Row) (next : StepInput Row) (usage : WorkUsage)
    (actions : List OutputAction) (again : Bool) : Prop where
  moves : Transits spec loop left next usage actions again
  isOpen : loop.quantum.Open
  limits : loop.quantum.budget = effectiveBudget budget loop.output
  input : Taken usage.inputRows usage.inputBytes (loop.quantum.budget.maxInputRows - loop.quantum.used.inputRows)
    (loop.quantum.budget.maxInputBytes - loop.quantum.used.inputBytes) (nextInput spec loop.toStepInput)
  output : Taken usage.outputRows usage.outputBytes (loop.quantum.budget.maxOutputRows - loop.quantum.used.outputRows)
    (loop.quantum.budget.maxOutputBytes - loop.quantum.used.outputBytes) (nextOutput spec loop.toStepInput left)
  run : loopBody spec loop =
    (appendOutput loop.output actions >>= fun output =>
      .ok (⟨next, output, WorkQuantum.after loop.quantum usage⟩, again && (WorkQuantum.after loop.quantum usage).remaining.isSome))
  appended : (appendOutput loop.output actions =
        .ok (loop.output.grown (loop.quantum.used.outputRows + usage.outputRows) (loop.quantum.used.outputBytes + usage.outputBytes)) ∧
      (loop.quantum.used.outputRows = 0 ∨ actions = [] ∨
        loop.quantum.used.outputBytes + usage.outputBytes ≤ loop.output.targetBytes)) ∨
    0 < loop.quantum.used.outputRows ∧ actions ≠ [] ∧
      loop.output.targetBytes < loop.quantum.used.outputBytes + usage.outputBytes ∧
      appendOutput loop.output actions = .error (.failed "pending output exceeded its immutable chunk target")

theorem sound_rounds {budget left : WorkBudget} (bounded : Bounded budget) (rowsBounded : budget.maxInputRows ≤ bigintMax)
    {loop : LoopState Row} (sound : loop.Sound spec budget) (opened : loop.quantum.remaining = some left) :
    ∃ next usage actions again, Rounds spec budget left loop next usage actions again := by
  obtain ⟨next, usage, actions, again, moves⟩ := sound_transits spec budget left bounded loop sound opened
  obtain ⟨isOpen, inputRowsLeft, inputBytesLeft, outputRowsLeft, outputBytesLeft⟩ := remaining_open opened
  have leftBounded := left_bounded bounded sound.limits opened
  have input := moves.input
  have output := moves.output
  have inputWord := bytes_of_word input leftBounded.inputBytes moves.inputMeasured
  have outputWord := bytes_of_word output leftBounded.outputBytes (fun size same => (moves.outputMeasured size same).2)
  rw [inputRowsLeft, inputBytesLeft] at input
  rw [outputRowsLeft, outputBytesLeft] at output
  have inputRowLimit := input.rowLimit
  have outputRowLimit := output.rowLimit
  obtain ⟨some, inputRowsOpen, inputBytesOpen, outputRowsOpen, outputBytesOpen⟩ := isOpen
  have words : bigintMax + bigintMax ≤ u64Max := by decide
  have inputRowsMax : loop.quantum.budget.maxInputRows = budget.maxInputRows := by rw [sound.limits]; rfl
  have inputBytesMax : loop.quantum.budget.maxInputBytes = budget.maxInputBytes := by rw [sound.limits]; rfl
  have outputRowsMax : loop.quantum.budget.maxOutputRows ≤ budget.maxOutputRows := by
    rw [sound.limits]
    exact Nat.min_le_left _ _
  have outputBytesMax : loop.quantum.budget.maxOutputBytes ≤ budget.maxOutputBytes := by
    rw [sound.limits]
    exact Nat.min_le_left _ _
  have targetRows : loop.quantum.budget.maxOutputRows ≤ loop.output.targetRows := by
    rw [sound.limits]
    exact Nat.min_le_right _ _
  have inputBytesWord := bounded.inputBytes
  have outputRowsWord := bounded.outputRows
  have outputBytesWord := bounded.outputBytes
  have recorded := record_ok loop.quantum usage some (by omega) (by omega) (by omega) (by omega)
  have measured : actions ≠ [] → 0 < actionBytes actions := by
    intro present
    rw [← moves.bytes]
    have rows := moves.rows
    have positive := List.length_pos_iff.mpr present
    cases first : nextOutput spec loop.toStepInput left with
    | none =>
        have nothing := output.nothing first
        omega
    | some size =>
        have sized := (moves.outputMeasured size first).1
        have filled := output.filled size first
        omega
  have appended := append_output_cases sound.pending
    sound.empty measured (by rw [← moves.rows]; omega) (by rw [← moves.rows]; omega) (by rw [← moves.bytes]; omega)
  rw [← moves.rows, ← moves.bytes] at appended
  refine ⟨next, usage, actions, again, moves, ⟨some, inputRowsOpen, inputBytesOpen, outputRowsOpen, outputBytesOpen⟩, sound.limits,
    input, output, ?_, appended⟩
  rw [loopBody, opened]
  change (loopTransition spec loop left >>= _) = _
  rw [moves.run]
  cases appendOutput loop.output actions with
  | error fault => rfl
  | ok target =>
      rw [ok_bind, ok_bind, ok_bind]
      change (loop.quantum.record usage >>= _) = _
      rw [recorded]
      rfl

end

end Shiba.Join
