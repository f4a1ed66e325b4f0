import Shiba.Join.StepRoom

set_option autoImplicit false

namespace Shiba.Join

open Shiba.Execution Portions Transition

section

variable {Row : Type} [DecidableEq Row] (spec : JoinSpec Row)

-- What a round leaves behind when everything it took had room.
structure RoundTaken (budget : WorkBudget) (loop after : LoopState Row) (again : Bool) : Prop where
  held : after.output.Holds
  accepted : after.quantum.used.validate budget = .ok ()
  transitions : after.quantum.transitions = loop.quantum.transitions + 1
  maxTransitions : after.quantum.maxTransitions = loop.quantum.maxTransitions
  goesOn : again = true → after.Sound spec budget ∧ ∃ left, after.quantum.remaining = some left

omit [DecidableEq Row] in
theorem pending_of_some (rows bytes : Nat) (pending : PendingDataChunk) (held : pendingOf rows bytes = some pending) :
    pending.rows = rows ∧ pending.bytes = bytes := by
  unfold pendingOf at held
  by_cases none : rows = 0
  · rw [if_pos none] at held
    cases held
  · rw [if_neg none] at held
    obtain rfl := Option.some.inj held
    exact ⟨rfl, rfl⟩

section

variable {budget left : WorkBudget} (bounded : Bounded budget) (rowsBounded : budget.maxInputRows ≤ bigintMax)
  {loop : LoopState Row} (sound : loop.Sound spec budget) (opened : loop.quantum.remaining = some left)

include bounded rowsBounded sound opened

theorem roomy_round (roomy : loop.Roomy spec) :
    ∃ after again, loopBody spec loop = .ok (after, again) ∧ RoundTaken spec budget loop after again := by
  obtain ⟨next, usage, actions, again, round⟩ := sound_rounds spec bounded rowsBounded sound opened
  obtain ⟨inputRoom, outputRoom⟩ := roomy left opened
  obtain ⟨_, inputBytesLeft, _, outputBytesLeft⟩ := (remaining_open opened).2
  rw [inputBytesLeft] at inputRoom
  rw [outputBytesLeft] at outputRoom
  obtain ⟨_, inputRowsOpen, inputBytesOpen, outputRowsOpen, outputBytesOpen⟩ := round.isOpen
  have inputWhole := whole_of_room _ _ _ _ _ _ _ inputRowsOpen inputBytesOpen round.input inputRoom
  have outputWhole := whole_of_room _ _ _ _ _ _ _ outputRowsOpen outputBytesOpen round.output outputRoom
  have inputRowsMax : loop.quantum.budget.maxInputRows = budget.maxInputRows := by rw [round.limits]; rfl
  have inputBytesMax : loop.quantum.budget.maxInputBytes = budget.maxInputBytes := by rw [round.limits]; rfl
  have outputRowsMax : loop.quantum.budget.maxOutputRows = min budget.maxOutputRows loop.output.targetRows := by
    rw [round.limits]; rfl
  have outputBytesMax : loop.quantum.budget.maxOutputBytes = min budget.maxOutputBytes loop.output.targetBytes := by
    rw [round.limits]; rfl
  rw [inputRowsMax, inputBytesMax] at inputWhole
  rw [outputRowsMax, outputBytesMax] at outputWhole
  have appended : appendOutput loop.output actions = .ok (loop.output.grown
      (loop.quantum.used.outputRows + usage.outputRows) (loop.quantum.used.outputBytes + usage.outputBytes)) := by
    rcases round.appended with taken | ⟨later, _, large, _⟩
    · exact taken.1
    · have inside := bytes_of_later _ _ _ _ _ _ _ outputBytesOpen round.output outputRoom later
      omega
  have run := round.run
  rw [appended, ok_bind] at run
  refine ⟨_, _, run, ?_, ?_, rfl, rfl, ?_⟩
  · intro pending held
    obtain ⟨rows, bytes⟩ := pending_of_some _ _ pending held
    change Whole pending.rows pending.bytes loop.output.targetRows loop.output.targetBytes
    rw [rows, bytes]
    unfold Whole at outputWhole ⊢
    omega
  · refine (validate_whole _ _).mpr ⟨inputWhole, ?_⟩
    change Whole (loop.quantum.used.outputRows + usage.outputRows) (loop.quantum.used.outputBytes + usage.outputBytes) _ _
    unfold Whole at outputWhole ⊢
    omega
  · intro goes
    rw [Bool.and_eq_true] at goes
    obtain ⟨left', remains⟩ := Option.isSome_iff_exists.mp goes.2
    refine ⟨⟨round.moves.consistent, round.moves.offered goes.1, round.limits, rfl, ?_⟩, left', remains⟩
    intro nothing
    change loop.quantum.used.outputRows + usage.outputRows = 0 at nothing
    change loop.quantum.used.outputBytes + usage.outputBytes = 0
    obtain ⟨before, here⟩ := Nat.add_eq_zero_iff.mp nothing
    have rows := round.moves.rows
    rw [here] at rows
    have none := List.length_eq_zero_iff.mp rows.symm
    have bytes := round.moves.bytes
    rw [none] at bytes
    rw [sound.empty before, bytes]
    rfl

-- A round that takes what has no room ends the step, and its whole usage is refused.
theorem crowded_round {after : LoopState Row} {again : Bool} (crowded : ¬ loop.Roomy spec)
    (ok : loopBody spec loop = .ok (after, again)) :
    again = false ∧ after.quantum.used.validate budget ≠ .ok () := by
  obtain ⟨next, usage, actions, goes, round⟩ := sound_rounds spec bounded rowsBounded sound opened
  obtain ⟨_, inputBytesLeft, _, outputBytesLeft⟩ := (remaining_open opened).2
  obtain ⟨_, _, inputBytesOpen, _, outputBytesOpen⟩ := round.isOpen
  have inputBytesMax : loop.quantum.budget.maxInputBytes = budget.maxInputBytes := by rw [round.limits]; rfl
  have outputBytesMax : loop.quantum.budget.maxOutputBytes = min budget.maxOutputBytes loop.output.targetBytes := by
    rw [round.limits]; rfl
  have run := round.run
  rw [ok] at run
  obtain ⟨output, stored, same⟩ := bind_ok_iff.mp run.symm
  have kept := Except.ok.inj same
  obtain ⟨rfl, rfl⟩ := Prod.mk.inj kept.symm
  have full : loop.quantum.budget.maxInputBytes < loop.quantum.used.inputBytes + usage.inputBytes ∧
        1 < loop.quantum.used.inputRows + usage.inputRows ∨
      loop.quantum.budget.maxOutputBytes < loop.quantum.used.outputBytes + usage.outputBytes ∧
        1 < loop.quantum.used.outputRows + usage.outputRows ∧ 0 < loop.quantum.used.outputRows := by
    unfold LoopState.Roomy at crowded
    push Not at crowded
    obtain ⟨other, remains, misses⟩ := crowded
    rw [opened] at remains
    obtain rfl := Option.some.inj remains
    by_cases room : Room loop.quantum.used.inputRows left.maxInputBytes (nextInput spec loop.toStepInput)
    · have missing := misses room
      rw [outputBytesLeft] at missing
      exact .inr (over_of_no_room _ _ _ _ _ _ _ outputBytesOpen round.output missing)
    · rw [inputBytesLeft] at room
      obtain ⟨bytes, rows, _⟩ := over_of_no_room _ _ _ _ _ _ _ inputBytesOpen round.input room
      exact .inl ⟨bytes, rows⟩
  constructor
  · have closed : (WorkQuantum.after loop.quantum usage).remaining = none := by
      cases remains : (WorkQuantum.after loop.quantum usage).remaining with
      | none => rfl
      | some later =>
          obtain ⟨_, _, inputBytes, _, outputBytes⟩ := (remaining_open remains).1
          change loop.quantum.used.inputBytes + usage.inputBytes < loop.quantum.budget.maxInputBytes at inputBytes
          change loop.quantum.used.outputBytes + usage.outputBytes < loop.quantum.budget.maxOutputBytes at outputBytes
          omega
    rw [closed]
    exact Bool.and_false _
  · intro accepted
    obtain ⟨inputWhole, outputWhole⟩ := (validate_whole _ _).mp accepted
    change Whole (loop.quantum.used.inputRows + usage.inputRows) (loop.quantum.used.inputBytes + usage.inputBytes) _ _ at inputWhole
    change Whole (loop.quantum.used.outputRows + usage.outputRows) (loop.quantum.used.outputBytes + usage.outputBytes) _ _
      at outputWhole
    unfold Whole at inputWhole outputWhole
    rcases full with inputFull | ⟨bytes, rows, later⟩
    · omega
    · rcases round.appended with ⟨_, first | nothing | fits⟩ | ⟨_, _, _, refused⟩
      · omega
      · have emitted := round.moves.bytes
        rw [nothing] at emitted
        change usage.outputBytes = 0 at emitted
        omega
      · omega
      · rw [refused] at stored
        cases stored

end

section

variable (budget : WorkBudget) (bounded : Bounded budget) (rowsBounded : budget.maxInputRows ≤ bigintMax)
  (rounds : Nat) (loop : LoopState Row)

include bounded rowsBounded

-- By induction on the rounds that the quantum still allows.
theorem roomy_loop (left : WorkBudget) (sound : loop.Sound spec budget) (opened : loop.quantum.remaining = some left)
    (enough : rounds + loop.quantum.transitions = loop.quantum.maxTransitions)
    (roomy : ∀ reached, Reaches spec loop reached → reached.Roomy spec) :
    ∃ final, stepLoop spec rounds loop = .ok final ∧ final.output.Holds ∧ final.quantum.used.validate budget = .ok () := by
  induction rounds generalizing loop left with
  | zero =>
      have some := (remaining_open opened).1.1
      omega
  | succ rounds ih =>
      obtain ⟨after, again, ran, taken⟩ := roomy_round spec bounded rowsBounded sound opened (roomy loop (.here loop))
      rw [stepLoop, ran, ok_bind]
      cases again with
      | false => exact ⟨after, rfl, taken.held, taken.accepted⟩
      | true =>
          obtain ⟨next, left', remains⟩ := taken.goesOn rfl
          have transitions := taken.transitions
          have limit := taken.maxTransitions
          exact ih after left' next remains (by omega) (fun reached later => roomy reached (.next loop after reached ran later))

theorem accepted_loop (final : LoopState Row) (left : WorkBudget) (sound : loop.Sound spec budget)
    (opened : loop.quantum.remaining = some left) (ran : stepLoop spec rounds loop = .ok final)
    (accepted : final.quantum.used.validate budget = .ok ()) (reached : LoopState Row) (run : Reaches spec loop reached) :
    reached.Roomy spec := by
  induction rounds generalizing loop left with
  | zero => cases ran
  | succ rounds ih =>
      rw [stepLoop] at ran
      obtain ⟨⟨after, again⟩, body, ran⟩ := bind_ok_iff.mp ran
      by_cases roomy : loop.Roomy spec
      · cases run with
        | here => exact roomy
        | next _ middle _ taken later =>
            rw [body] at taken
            obtain ⟨rfl, rfl⟩ := Prod.mk.inj (Except.ok.inj taken)
            obtain ⟨other, goes, known, moved⟩ := roomy_round spec bounded rowsBounded sound opened roomy
            rw [body] at known
            obtain ⟨rfl, rfl⟩ := Prod.mk.inj (Except.ok.inj known)
            obtain ⟨next, left', remains⟩ := moved.goesOn rfl
            exact ih _ left' next remains ran later
      · obtain ⟨stops, refused⟩ := crowded_round spec bounded rowsBounded sound opened roomy body
        rw [stops] at ran
        obtain rfl := Except.ok.inj ran
        exact absurd accepted refused

end

section

variable (budget : WorkBudget) (output : OutputTarget)

theorem begin_sound {input : StepInput Row} (consistent : Consistent spec input.state) (offered : input.Offered spec) :
    (input.begin budget output).Sound spec budget :=
  ⟨consistent, offered, rfl, rfl, fun _ => rfl⟩

omit [DecidableEq Row] in
theorem begin_open (input : StepInput Row) :
    ∃ left, (input.begin budget output).quantum.remaining = some left := by
  have isOpen : (input.begin budget output).quantum.Open :=
    ⟨loop_transitions_positive, (effectiveBudget budget output).inputRowsPositive, (effectiveBudget budget output).inputBytesPositive,
      (effectiveBudget budget output).outputRowsPositive, (effectiveBudget budget output).outputBytesPositive⟩
  exact ⟨_, dif_pos isOpen⟩

end

end

theorem sixty_measured : 0 < 60 ∧ 60 ≤ bigintMax := by decide
theorem ten_positive : 0 < 10 := by decide
theorem hundred_positive : 0 < 100 := by decide

-- Rows without columns whose output takes sixty bytes.
def sixtyBytes : JoinSpec Unit where
  mode := .left
  condition := (oneRow .left).condition
  probed := (oneRow .left).probed
  rowBytes := (oneRow .left).rowBytes
  pairBytes _ _ := 60
  singleBytes _ _ := 60
  skipped := (oneRow .left).skipped
  rowMeasured := (oneRow .left).rowMeasured
  pairMeasured _ _ := sixty_measured
  singleMeasured _ _ := sixty_measured

abbrev hundredBytes : WorkBudget where
  maxInputRows := 10
  maxInputBytes := 100
  maxOutputRows := 10
  maxOutputBytes := 100
  inputRowsPositive := ten_positive
  inputBytesPositive := hundred_positive
  outputRowsPositive := ten_positive
  outputBytesPositive := hundred_positive

abbrev hundredTarget : OutputTarget where
  targetRows := 10
  targetBytes := 100
  rowsPositive := ten_positive
  bytesPositive := hundred_positive

abbrev twoRows : StepInput Unit where
  state := {}
  preflight := false
  rows := [((), oneRowEvent .left 1), ((), oneRowEvent .left 1)]

theorem sixty_representable (consumed : List ((InputSide × Unit) × Int)) (bag : bagOf consumed .left () ≤ 1)
    (meetings : ∀ truth, meeting sixtyBytes consumed .left () truth ≤ 1) (other : bagOf consumed .right () = 0) :
    Representable sixtyBytes consumed .left () 1 := by
  have wide : (3 : Int) ≤ bigintMax := by decide
  have matched := meetings .true
  have unknown := meetings .unknown
  refine ⟨by omega, by omega, by omega, ?_, ?_⟩
  · intro row truth present _ _
    change 0 < bagOf consumed .right () at present
    omega
  · intro row present _ _
    change 0 < bagOf consumed .right () at present
    omega

theorem two_rows_offered : twoRows.Offered sixtyBytes := by
  refine .idle rfl (List.cons_ne_nil _ _) ⟨⟨rfl, by decide, by decide, ?_⟩, ⟨rfl, by decide, by decide, ?_⟩, trivial⟩
  · exact sixty_representable [] (by decide) (by intro truth; cases truth <;> decide) rfl
  · exact sixty_representable [((.left, ()), 1)] (by decide) (by intro truth; cases truth <;> decide) rfl

end Shiba.Join
