import Shiba.Join.Spent
import Shiba.Library.Portions

set_option autoImplicit false

namespace Shiba.Join

open Shiba.Execution Budget Portions Weighted

section

variable {Row : Type} [DecidableEq Row] (spec : JoinSpec Row)

omit [DecidableEq Row] in
-- What the probe's page takes of the input budget.
theorem probe_page (side : InputSide) (budget : WorkBudget) (entries : List (Entry Row)) :
    Whole (entries.take (probeCount spec side budget entries)).length
        (pageBytes spec side (entries.take (probeCount spec side budget entries))) budget.maxInputRows budget.maxInputBytes ∧
      (entries ≠ [] → 0 < probeCount spec side budget entries) := by
  obtain ⟨count, selected, filled, whole⟩ := page_prefix (fun entry : Entry Row => spec.rowBytes side.opposite entry.row) entries budget.maxInputBytes budget.inputRowsPositive
  have length : probeCount spec side budget entries = min count entries.length := by
    rw [← List.length_take, ← selected]
    rfl
  have page : entries.take (probeCount spec side budget entries) = entries.take count := by
    rw [length, List.take_eq_take_iff]
    omega
  rw [page]
  refine ⟨whole, ?_⟩
  intro present
  have some := filled present
  have long := List.length_pos_iff.mpr present
  omega

-- A planned page's usage counts the page and what it emits.
omit [DecidableEq Row] in
theorem plan_spent {side : InputSide} {row : Row} {weight : Int} {pending : Option CandidateExpectation}
    {progress : InputProgress} {event : InputEventFacts} {page : List (Entry Row)} {complete : Bool} {budget : WorkBudget}
    {plan : ActionPlan} (sided : progress.side = side) (weighed : progress.eventWeight = weight)
    (planned : planActions spec.mode (scanAt pending progress) event
      { candidates := page.map (candidateProbe spec side row weight), complete := complete } budget = .ok plan) :
    plan.usage.inputRows = page.length ∧ plan.usage.inputBytes = pageBytes spec side page ∧
      plan.usage.outputRows = plan.actions.length ∧ plan.usage.outputBytes = actionBytes plan.actions ∧
      Whole plan.usage.outputRows plan.usage.outputBytes budget.maxOutputRows budget.maxOutputBytes ∧
      (plan.actions.map OutputAction.rowBytes).head? = (owedSizes spec side row weight pending page).head? := by
  unfold planActions at planned
  obtain ⟨_, _, planned⟩ := bind_ok_iff.mp planned
  obtain ⟨⟨start, begun⟩, opened, planned⟩ := bind_ok_iff.mp planned
  have parts : start = progress ∧ begun = pending := by
    cases pending <;> exact ⟨(Prod.mk.inj (Except.ok.inj opened)).1.symm, (Prod.mk.inj (Except.ok.inj opened)).2.symm⟩
  have planned := past_check (past_check planned)
  obtain ⟨inputBytes, summed, planned⟩ := bind_ok_iff.mp planned
  obtain ⟨_, _, planned⟩ := bind_ok_iff.mp planned
  obtain ⟨state, processed, planned⟩ := bind_ok_iff.mp planned
  have planned := past_check (past_check planned)
  obtain ⟨next, _, planned⟩ := bind_ok_iff.mp planned
  obtain ⟨_, _, planned⟩ := bind_ok_iff.mp planned
  obtain rfl := Except.ok.inj planned
  rw [parts.1, parts.2] at processed
  have accounted : Accounted budget { progress := progress } := ⟨rfl, rfl, Nat.zero_le _, .inl (Nat.zero_le _)⟩
  obtain ⟨whole, _⟩ := process_accounted _ pending _ accounted processed
  have first := process_first spec side row weight budget page pending { progress := progress } state sided weighed accounted rfl
    processed
  refine ⟨List.length_map _, ?_, whole.rows, whole.bytes, ⟨whole.rowLimit, whole.byteLimit⟩, first⟩
  have total : ∀ (entries : List (Entry Row)) (before after : Nat),
      sumRowBytes (entries.map (candidateProbe spec side row weight)) before = .ok after →
        after = before + pageBytes spec side entries := by
    intro entries
    induction entries with
    | nil =>
        intro before after ok
        exact (Except.ok.inj ok).symm
    | cons entry rest ih =>
        intro before after ok
        rw [List.map_cons, sumRowBytes] at ok
        obtain ⟨middle, added, ok⟩ := bind_ok_iff.mp ok
        have here := checked_u64_inv added
        rw [ih middle after ok, here, pageBytes, pageBytes, List.map_cons, List.sum_cons, Nat.add_assoc]
        rfl
  exact (total page 0 inputBytes summed).trans (Nat.zero_add _)

end

section

variable {Row : Type} [DecidableEq Row] (spec : JoinSpec Row)

-- A row of the input that the Join can take: its multiplicities stay bigint values.
structure RowOffered (consumed : List ((InputSide × Row) × Int)) (row : Row) (event : InputEventFacts) : Prop where
  valid : event.validate = .ok ()
  measured : event.rowBytes ≤ bigintMax
  natural : 0 ≤ bagOf consumed event.side row + event.weight
  representable : Representable spec consumed event.side row event.weight

def RowsOffered : List ((InputSide × Row) × Int) → List (Row × InputEventFacts) → Prop
  | _, [] => True
  | consumed, (row, event) :: rest =>
      RowOffered spec consumed row event ∧ RowsOffered (consumed ++ [((event.side, row), event.weight)]) rest

inductive StepInput.Offered (input : StepInput Row) : Prop where
  | idle (free : input.state.current = none) (some : input.rows ≠ [])
      (offered : RowsOffered spec input.state.consumed input.rows) : StepInput.Offered input
  | within (current : Current Row) (rest : List (Row × InputEventFacts)) (here : input.state.current = some current)
      (rows : input.rows = (current.row, current.event) :: rest) (measured : current.event.rowBytes ≤ bigintMax)
      (offered : RowsOffered spec (input.state.consumed ++ [((current.event.side, current.row), current.event.weight)]) rest) :
      StepInput.Offered input

omit [DecidableEq Row] in
def probedPage (input : StepInput Row) (current : Current Row) (progress : InputProgress) (budget : WorkBudget) :
    List (Entry Row) :=
  let rest := remaining spec current.event.side current.row (cursor progress)
    (input.state.arrangement current.event.side.opposite)
  rest.take (probeCount spec current.event.side budget rest)

-- The size of the row that the next transition reads first.
def nextInput (input : StepInput Row) : Option Nat :=
  match input.state.current with
  | none => none
  | some current =>
      match current.continuation with
      | .probe progress | .pendingTransition progress _ =>
          (remaining spec current.event.side current.row (cursor progress)
            (input.state.arrangement current.event.side.opposite)).head?.map fun entry =>
              spec.rowBytes current.event.side.opposite entry.row
      | .finalize _ => some current.event.rowBytes
      | .preflight _ _ | .frontier _ => none

-- The size of the row that the next transition emits first.
def nextOutput (input : StepInput Row) (budget : WorkBudget) : Option Nat :=
  match input.state.current with
  | none => none
  | some current =>
      match current.continuation with
      | .probe progress =>
          (owedSizes spec current.event.side current.row current.event.weight none
            (probedPage spec input current progress budget)).head?
      | .pendingTransition progress candidate =>
          (owedSizes spec current.event.side current.row current.event.weight (some candidate)
            (probedPage spec input current progress budget)).head?
      | .finalize progress =>
          if currentSideIsEligible spec.mode current.event.side progress.oppositeCounts then
            some (spec.singleBytes current.event.side current.row)
          else none
      | .preflight _ _ | .frontier _ => none

-- What the next transition takes first fits what the quantum has left, or the
-- step has taken nothing of it yet.
def LoopState.Roomy (loop : LoopState Row) : Prop :=
  ∀ left, loop.quantum.remaining = some left →
    Room loop.quantum.used.inputRows left.maxInputBytes (nextInput spec loop.toStepInput) ∧
      Room loop.quantum.used.outputRows left.maxOutputBytes (nextOutput spec loop.toStepInput left)

-- The loop states that one step goes through.
inductive Reaches : LoopState Row → LoopState Row → Prop where
  | here (loop : LoopState Row) : Reaches loop loop
  | next (loop after last : LoopState Row) (taken : loopBody spec loop = .ok (after, true)) (later : Reaches after last) :
      Reaches loop last

-- One immutable chunk takes the pending output.
def OutputTarget.Holds (output : OutputTarget) : Prop :=
  ∀ pending, output.pending = some pending → Whole pending.rows pending.bytes output.targetRows output.targetBytes

def pendingOf (rows bytes : Nat) : Option PendingDataChunk := if rows = 0 then none else some ⟨rows, bytes⟩

structure LoopState.Sound (budget : WorkBudget) (loop : LoopState Row) : Prop where
  consistent : Consistent spec loop.state
  offered : loop.toStepInput.Offered spec
  limits : loop.quantum.budget = effectiveBudget budget loop.output
  pending : loop.output.pending = pendingOf loop.quantum.used.outputRows loop.quantum.used.outputBytes
  empty : loop.quantum.used.outputRows = 0 → loop.quantum.used.outputBytes = 0

-- A transition whose planning and state changes succeed; its output is still to be appended.
structure Transits (loop : LoopState Row) (left : WorkBudget) (next : StepInput Row) (usage : WorkUsage)
    (actions : List OutputAction) (again : Bool) : Prop where
  run : loopTransition spec loop left =
    (appendOutput loop.output actions >>= fun output => .ok (⟨next, output, loop.quantum⟩, ⟨usage, again⟩))
  consistent : Consistent spec next.state
  offered : again = true → next.Offered spec
  input : Taken usage.inputRows usage.inputBytes left.maxInputRows left.maxInputBytes (nextInput spec loop.toStepInput)
  output : Taken usage.outputRows usage.outputBytes left.maxOutputRows left.maxOutputBytes
    (nextOutput spec loop.toStepInput left)
  inputMeasured : ∀ size, nextInput spec loop.toStepInput = some size → size ≤ bigintMax
  outputMeasured : ∀ size, nextOutput spec loop.toStepInput left = some size → 0 < size ∧ size ≤ bigintMax
  rows : usage.outputRows = actions.length
  bytes : usage.outputBytes = actionBytes actions

variable {spec}

omit [DecidableEq Row] in
theorem taken_nothing (maxRows maxBytes : Nat) : Taken 0 0 maxRows maxBytes none := by
  refine ⟨Nat.zero_le _, fun _ => ⟨rfl, rfl⟩, ?_, ?_, ?_⟩ <;> intro size wrong <;> cases wrong

theorem quiet_transits (loop : LoopState Row) (left : WorkBudget) (next : StepInput Row)
    (idle : loop.state.current = none) (run : loopTransition spec loop left = .ok ({ loop with toStepInput := next }, ⟨{}, true⟩))
    (consistent : Consistent spec next.state) (offered : next.Offered spec) : Transits spec loop left next {} [] true := by
  have input : nextInput spec loop.toStepInput = none := by rw [nextInput, idle]
  have output : nextOutput spec loop.toStepInput left = none := by rw [nextOutput, idle]
  refine ⟨run, consistent, fun _ => offered, by rw [input]; exact taken_nothing _ _, by rw [output]; exact taken_nothing _ _,
    ?_, ?_, rfl, rfl⟩
  · intro size wrong
    rw [input] at wrong
    cases wrong
  · intro size wrong
    rw [output] at wrong
    cases wrong

theorem preflight_moves {state after : JoinState Row} {row : Row} {event : InputEventFacts}
    (ok : stepPreflight state row event = .ok after) :
    ∃ continuation, after.current = some ⟨row, event, continuation⟩ ∧ after.consumed = state.consumed := by
  unfold stepPreflight at ok
  obtain ⟨_, ok⟩ := refuse_bind_ok.mp ok
  obtain ⟨own, _, ok⟩ := bind_ok_iff.mp ok
  obtain ⟨continuation, _, ok⟩ := bind_ok_iff.mp ok
  obtain rfl := Except.ok.inj ok
  exact ⟨continuation, rfl, rfl⟩

theorem event_offered (row : Row) (event : InputEventFacts) (state : JoinState Row) (idle : state.current = none)
    (offered : RowOffered spec state.consumed row event) : Offered spec (Representable spec) state (.start row event) := by
  obtain ⟨placed, weighed, measured⟩ := event_parts offered.valid
  exact .start row event idle placed weighed measured offered.natural offered.representable

theorem idle_transits (loop : LoopState Row) (left : WorkBudget) (consistent : Consistent spec loop.state)
    (idle : loop.state.current = none) (some : loop.rows ≠ []) (offered : RowsOffered spec loop.state.consumed loop.rows) :
    ∃ next, Transits spec loop left next {} [] true := by
  cases stored : loop.preflight with
  | false =>
      refine ⟨{ loop.toStepInput with preflight := true }, quiet_transits loop left _ idle ?_ consistent
        (.idle idle some offered)⟩
      rw [loopTransition, idle]
      simp only [stored, openNextInput]
      rw [refuse_false (by rw [List.isEmpty_eq_false_iff]; exact some), ok_bind]
      rfl
  | true =>
      cases rows : loop.rows with
      | nil => exact absurd rows some
      | cons head rest =>
          obtain ⟨row, event⟩ := head
          rw [rows] at offered
          obtain ⟨after, stepped, reached⟩ := step_consistent spec loop.state (.start row event) consistent
            (event_offered row event loop.state idle offered.1)
          obtain ⟨continuation, current, consumed⟩ := preflight_moves stepped
          refine ⟨⟨after, false, loop.rows⟩, quiet_transits loop left _ idle ?_ reached
            (.within ⟨row, event, continuation⟩ rest current rows offered.1.measured ?_)⟩
          · rw [loopTransition, idle]
            simp only [stored, loopPreflight, rows]
            change stepPreflight loop.state row event = .ok after at stepped
            rw [stepped, ok_bind]
            rfl
          · rw [consumed]
            exact offered.2

variable {loop : LoopState Row} {left budget : WorkBudget} {progress : InputProgress} {current : Current Row}

-- A quantum's remaining budget is inside the targets, so the clamp changes nothing.
omit [DecidableEq Row] in
theorem effective_left (limits : loop.quantum.budget = effectiveBudget budget loop.output)
    (remaining : loop.quantum.remaining = some left) : effectiveBudget left loop.output = left := by
  unfold WorkQuantum.remaining at remaining
  by_cases isOpen : loop.quantum.Open
  · rw [dif_pos isOpen] at remaining
    obtain rfl := Option.some.inj remaining
    have rows : loop.quantum.budget.maxOutputRows ≤ loop.output.targetRows := by
      rw [limits]
      exact Nat.min_le_right _ _
    have bytes : loop.quantum.budget.maxOutputBytes ≤ loop.output.targetBytes := by
      rw [limits]
      exact Nat.min_le_right _ _
    unfold effectiveBudget WorkQuantum.left
    simp only [WorkBudget.mk.injEq, true_and]
    exact ⟨Nat.min_eq_left (by omega), Nat.min_eq_left (by omega)⟩
  · rw [dif_neg isOpen] at remaining
    cases remaining

omit [DecidableEq Row] in
theorem candidates_moves {state after : JoinState Row} {count : Nat}
    (loaded : requireCurrent state = .ok (current, progress)) (ok : stepCandidates spec state count budget = .ok after) :
    ∃ plan, candidatesPlan spec state count budget = .ok plan ∧
      planActions spec.mode current.continuation current.event
        (probeCandidates spec current progress (state.arrangement current.event.side.opposite) count) budget = .ok plan ∧
      after.current = some { current with continuation := plan.next } ∧ after.consumed = state.consumed := by
  unfold stepCandidates at ok
  rw [loaded, ok_bind] at ok
  obtain ⟨plan, planned, ok⟩ := bind_ok_iff.mp ok
  obtain ⟨rows, _, ok⟩ := bind_ok_iff.mp ok
  obtain ⟨entries, _, ok⟩ := bind_ok_iff.mp ok
  obtain rfl := Except.ok.inj ok
  refine ⟨plan, ?_, planned, rfl, rfl⟩
  rw [candidatesPlan, loaded, ok_bind]
  exact planned

theorem finalize_moves {state after : JoinState Row} (loaded : requireCurrent state = .ok (current, progress))
    (continued : current.continuation = .finalize progress) (ok : stepFinalize spec state budget = .ok after) :
    ∃ plan, finalizePlan spec state budget = .ok plan ∧ plan.usage = finalizeUsage progress plan.output ∧
      plan.output = currentOutput spec.mode progress (ownBytes spec current.event current.row progress.oppositeCounts) ∧
      after.current = none ∧
      after.consumed = state.consumed ++ [((current.event.side, current.row), current.event.weight)] := by
  unfold stepFinalize at ok
  rw [loaded, ok_bind] at ok
  obtain ⟨own, owned, ok⟩ := bind_ok_iff.mp ok
  obtain ⟨unchanged, ok⟩ := refuse_bind_ok.mp ok
  obtain ⟨plan, planned, ok⟩ := bind_ok_iff.mp ok
  obtain ⟨rows, _, ok⟩ := bind_ok_iff.mp ok
  obtain ⟨entries, _, ok⟩ := bind_ok_iff.mp ok
  obtain rfl := Except.ok.inj ok
  have final : finalizePlan spec state budget = .ok plan := by
    rw [finalizePlan, loaded, ok_bind]
    refine bind_ok_iff.mpr ⟨own, owned, ?_⟩
    exact refuse_bind_ok.mpr ⟨unchanged, planned⟩
  unfold planFinalize at planned
  have planned := past_check (past_check planned)
  obtain ⟨known, same, planned⟩ := bind_ok_iff.mp planned
  rw [continued] at same
  obtain rfl := Except.ok.inj same
  have planned := past_check (past_check planned)
  obtain ⟨⟨rowId, old⟩, _, planned⟩ := bind_ok_iff.mp planned
  obtain ⟨new, _, planned⟩ := bind_ok_iff.mp planned
  obtain ⟨kind, _, planned⟩ := bind_ok_iff.mp planned
  have planned := past_check (past_check planned)
  obtain rfl := Except.ok.inj planned
  refine ⟨_, final, rfl, ?_, rfl, rfl⟩
  have sized : (ownProbe spec current.event.side current.row progress.oppositeCounts own).outputBytes =
      ownBytes spec current.event current.row progress.oppositeCounts := by
    unfold ownProbe ownBytes
    cases own.rowId <;> rfl
  change currentOutput _ _ _ = _
  rw [sized]

omit [DecidableEq Row] in
theorem owed_measured (side : InputSide) (row : Row) (weight : Int) (pending : Option CandidateExpectation)
    (page : List (Entry Row)) (size : Nat) (member : size ∈ owedSizes spec side row weight pending page) :
    0 < size ∧ size ≤ bigintMax := by
  obtain ⟨entry, _, listed⟩ := List.mem_flatMap.mp (List.mem_of_mem_drop member)
  unfold actionSizes at listed
  rcases List.mem_append.mp listed with pair | single
  · split at pair
    · rw [List.mem_singleton.mp pair]
      exact pair_size_measured spec side row entry.row
    · cases pair
  · split at single
    · rw [List.mem_singleton.mp single]
      exact spec.singleMeasured side.opposite entry.row
    · cases single

theorem left_bounded {output : OutputTarget} {quantum : WorkQuantum} (bounded : Bounded budget)
    (limits : quantum.budget = effectiveBudget budget output) (remaining : quantum.remaining = some left) :
    Bounded left := by
  unfold WorkQuantum.remaining at remaining
  by_cases isOpen : quantum.Open
  · rw [dif_pos isOpen] at remaining
    obtain rfl := Option.some.inj remaining
    have inputBytes := bounded.inputBytes
    have outputRows := bounded.outputRows
    have outputBytes := bounded.outputBytes
    have rows : quantum.budget.maxOutputRows ≤ budget.maxOutputRows := by
      rw [limits]
      exact Nat.min_le_left _ _
    have bytes : quantum.budget.maxOutputBytes ≤ budget.maxOutputBytes := by
      rw [limits]
      exact Nat.min_le_left _ _
    have input : quantum.budget.maxInputBytes = budget.maxInputBytes := by rw [limits]; rfl
    unfold WorkQuantum.left
    exact ⟨by change _ - _ ≤ _; omega, by change _ - _ ≤ _; omega, by change _ - _ ≤ _; omega⟩
  · rw [dif_neg isOpen] at remaining
    cases remaining

theorem offered_within {input : StepInput Row} (here : input.state.current = some current) (offered : input.Offered spec) :
    ∃ rest, input.rows = (current.row, current.event) :: rest ∧
      current.event.rowBytes ≤ bigintMax ∧
      RowsOffered spec (input.state.consumed ++ [((current.event.side, current.row), current.event.weight)]) rest := by
  cases offered with
  | idle free _ _ =>
      rw [free] at here
      cases here
  | within other rest known rows measured later =>
      rw [known] at here
      obtain rfl := Option.some.inj here
      exact ⟨rest, rows, measured, later⟩

theorem candidates_transits (bounded : Bounded budget) (sound : loop.Sound spec budget)
    (opened : loop.quantum.remaining = some left) {pending : Option CandidateExpectation}
    (here : loop.state.current = some current) (underway : Underway current.event progress)
    (continued : current.continuation = scanAt pending progress) :
    ∃ next usage actions, Transits spec loop left next usage actions true := by
  have clamp := effective_left sound.limits opened
  have loaded : requireCurrent loop.state = .ok (current, progress) :=
    required loop.state current progress _ here continued (by cases pending <;> rfl)
  generalize rest : remaining spec current.event.side current.row (cursor progress)
    (loop.state.arrangement current.event.side.opposite) = entries
  obtain ⟨⟨fewRows, fewBytes⟩, taken⟩ := probe_page spec current.event.side left entries
  obtain ⟨after, stepped, reached⟩ := step_consistent spec loop.state
    (.candidates (probeCount spec current.event.side left entries) left) sound.consistent
    (.candidates current progress pending _ left here continued
      (left_bounded bounded sound.limits opened) (by rw [rest]; exact taken)
      (by rw [rest]; exact ⟨fewRows, fewBytes⟩))
  change stepCandidates spec loop.state (probeCount spec current.event.side left entries) left = .ok after at stepped
  obtain ⟨plan, planned, actions, moved, consumed⟩ := candidates_moves loaded stepped
  have page : probeCandidates spec current progress (loop.state.arrangement current.event.side.opposite)
      (probeCount spec current.event.side left entries) =
      { candidates := (entries.take (probeCount spec current.event.side left entries)).map
          (candidateProbe spec current.event.side current.row current.event.weight)
        complete := (entries.drop (probeCount spec current.event.side left entries)).isEmpty } := by
    simp only [probeCandidates, rest]
  rw [page, continued] at actions
  obtain ⟨inputRows, inputBytes, outputRows, outputBytes, whole, first⟩ := plan_spent spec underway.sided underway.weighed actions
  obtain ⟨later, rows, measured, offered⟩ := offered_within here sound.offered
  have input : nextInput spec loop.toStepInput =
      ((entries.take (probeCount spec current.event.side left entries)).map fun entry =>
        spec.rowBytes current.event.side.opposite entry.row).head? := by
    have named : nextInput spec loop.toStepInput =
        entries.head?.map fun entry => spec.rowBytes current.event.side.opposite entry.row := by
      simp only [nextInput, here, continued]
      cases pending <;> simp only [scanAt, rest]
    rw [named]
    cases listed : entries with
    | nil =>
        rw [List.take_nil]
        rfl
    | cons entry others =>
        have some := taken (by rw [listed]; exact List.cons_ne_nil _ _)
        rw [listed] at some
        obtain ⟨more, same⟩ := Nat.exists_eq_succ_of_ne_zero (Nat.pos_iff_ne_zero.mp some)
        rw [same]
        rfl
  have output : nextOutput spec loop.toStepInput left = (plan.actions.map OutputAction.rowBytes).head? := by
    rw [first]
    simp only [nextOutput, here, continued]
    cases pending <;> simp only [scanAt, probedPage, rest]
  refine ⟨⟨after, loop.preflight, loop.rows⟩, plan.usage, plan.actions, ?_, reached, ?_, ?_, ?_, ?_, ?_, outputRows, outputBytes⟩
  · have run : loopTransition spec loop left = loopCandidates spec loop current progress left := by
      simp only [loopTransition, here, continued]
      cases pending <;> rfl
    rw [run, loopCandidates]
    simp only [clamp, rest, planned, ok_bind, stepped]
    rfl
  · intro _
    refine .within _ later moved ?_ measured ?_
    · exact rows
    · rw [consumed]
      exact offered
  · rw [input, inputRows, inputBytes]
    have sizes := taken_of_sizes ((entries.take (probeCount spec current.event.side left entries)).map fun entry =>
      spec.rowBytes current.event.side.opposite entry.row) left.maxInputRows left.maxInputBytes
      (by rw [List.length_map]; exact ⟨fewRows, fewBytes⟩)
    rw [List.length_map] at sizes
    exact sizes
  · rw [output, outputRows, outputBytes]
    rw [outputRows, outputBytes] at whole
    have sizes := taken_of_sizes (plan.actions.map OutputAction.rowBytes) left.maxOutputRows left.maxOutputBytes
      (by rw [List.length_map]; exact whole)
    rw [List.length_map] at sizes
    exact sizes
  · intro size same
    rw [input] at same
    obtain ⟨entry, _, rfl⟩ := List.mem_map.mp (List.mem_of_mem_head? same)
    exact (spec.rowMeasured current.event.side.opposite entry.row).2
  · intro size same
    rw [output, first] at same
    exact owed_measured _ _ _ _ _ size (List.mem_of_mem_head? same)

theorem finalize_transits (sound : loop.Sound spec budget) (opened : loop.quantum.remaining = some left)
    (here : loop.state.current = some current) (underway : Underway current.event progress)
    (continued : current.continuation = .finalize progress) :
    ∃ next usage actions again, Transits spec loop left next usage actions again := by
  have clamp := effective_left sound.limits opened
  have loaded : requireCurrent loop.state = .ok (current, progress) := required loop.state current progress _ here continued rfl
  obtain ⟨after, stepped, reached⟩ := step_consistent spec loop.state (.finalize left) sound.consistent
    (.finalize current progress left here continued)
  change stepFinalize spec loop.state left = .ok after at stepped
  obtain ⟨plan, planned, usage, emitted, idle, consumed⟩ := finalize_moves loaded continued stepped
  obtain ⟨later, rows, measured, offered⟩ := offered_within here sound.offered
  have inputRowsLeft := left.inputRowsPositive
  have outputRowsLeft := left.outputRowsPositive
  have input : nextInput spec loop.toStepInput = some current.event.rowBytes := by
    simp only [nextInput, here, continued]
  have output : nextOutput spec loop.toStepInput left = (plan.output.toList.map OutputAction.rowBytes).head? := by
    simp only [nextOutput, here, continued, emitted, currentOutput, underway.sided]
    by_cases eligible : currentSideIsEligible spec.mode current.event.side progress.oppositeCounts = true
    · rw [if_pos eligible, if_pos eligible]
      change _ = some (ownBytes spec current.event current.row progress.oppositeCounts)
      rw [ownBytes, if_pos eligible]
    · rw [if_neg eligible, if_neg eligible]
      rfl
  have counted : plan.usage.outputRows = plan.output.toList.length ∧ plan.usage.outputBytes = actionBytes plan.output.toList := by
    rw [usage]
    cases plan.output <;> exact ⟨rfl, rfl⟩
  have few : plan.output.toList.length ≤ 1 := by
    cases plan.output with
    | none => exact Nat.zero_le 1
    | some action => exact Nat.le_refl 1
  refine ⟨⟨after, !later.isEmpty, later⟩, plan.usage, plan.output.toList, !later.isEmpty, ?_, reached, ?_, ?_, ?_, ?_, ?_,
    counted.1, counted.2⟩
  · have run : loopTransition spec loop left = loopFinalize spec loop left := by
      simp only [loopTransition, here, continued]
    rw [run, loopFinalize]
    simp only [clamp, planned, ok_bind, stepped, rows, List.tail_cons]
    rfl
  · intro again
    refine .idle idle ?_ ?_
    · intro wrong
      change later = [] at wrong
      rw [wrong] at again
      cases again
    · rw [consumed]
      exact offered
  · rw [input, usage]
    have sizes := taken_of_sizes [current.event.rowBytes] left.maxInputRows left.maxInputBytes ⟨inputRowsLeft, .inr rfl⟩
    rw [List.sum_singleton] at sizes
    change Taken 1 progress.eventBytes _ _ _
    rw [underway.sized]
    exact sizes
  · rw [output, counted.1, counted.2]
    have sizes := taken_of_sizes (plan.output.toList.map OutputAction.rowBytes) left.maxOutputRows left.maxOutputBytes (by
      rw [List.length_map]
      refine ⟨by omega, ?_⟩
      cases plan.output with
      | none => exact .inl (Nat.zero_le _)
      | some action => exact .inr rfl)
    rw [List.length_map] at sizes
    exact sizes
  · intro size same
    rw [input] at same
    obtain rfl := Option.some.inj same
    exact measured
  · intro size same
    simp only [nextOutput, here, continued] at same
    split at same
    · obtain rfl := Option.some.inj same
      exact spec.singleMeasured current.event.side current.row
    · cases same

end

end Shiba.Join
