import Shiba.Execution.DiffRun

set_option autoImplicit false

namespace Shiba.TopN

open Shiba.Execution

def topnDiffWords : DiffWords where
  owner := "TopN"
  inputRows := "TopN diff input row budget"
  outputRows := "TopN diff output row budget"
  inputBytes := "TopN diff input byte budget"
  outputBytes := "TopN diff output byte budget"

section

variable {Key Row : Type} [DecidableEq Key]

def runTopnDiff (octets : Row → Nat) (leg : DiffLeg) (cursor : TopNDiffCursor) (tables : DiffTables Key Row) (round : DiffRound) :
    Except Fault (TopNDiffPage × DiffOutcome Key Row) := do
  cursor.validate
  let outcome ← runDiff topnDiffWords octets leg cursor.rowId cursor.repeats tables round
  return (⟨⟨outcome.facts, outcome.lastRowId, outcome.complete⟩, outcome.repeatCursor⟩, outcome)

-- The stored continuation, the tables of its generation, and what it emitted.
structure TopNDiffState (Key Row : Type) where
  continuation : Option TopNContinuation
  tables : DiffTables Key Row
  emitted : List (Row × Int)

-- A step of a continuation whose action is a diff.
def topnDiffStep (machine : TopNMachine) (octets : Row → Nat) (state : TopNDiffState Key Row) (round : DiffRound) :
    Except Fault (TopNDiffState Key Row) :=
  match state.continuation with
  | none => .ok state
  | some continuation => do
      match ← machine.action continuation with
      | .diff _ leg cursor => do
          let (page, outcome) ← runTopnDiff octets leg cursor state.tables round
          let transition ← machine.apply continuation (.diffed page) round.budget
          return ⟨transition.continuation, outcome.tables, state.emitted ++ outcome.payload⟩
      | _ => return state

omit [DecidableEq Key] in
def TopNDiffState.leftDiff (state : TopNDiffState Key Row) : Bool :=
  match state.continuation with
  | some ⟨_, _, .diff _ _ _ _⟩ => false
  | _ => true

-- A drain from the start of its Remove leg on, for at most so many steps.
def topnDiffSteps (machine : TopNMachine) (octets : Row → Nat) (streamId generationId : Nat) (afterDrain : AfterDrain)
    (initial : DiffTables Key Row) (inputs : Nat → DiffRound) (count : Nat) : Except Fault (TopNDiffState Key Row) :=
  Rounds.rounds (topnDiffStep machine octets) TopNDiffState.leftDiff inputs count 0
    ⟨some ⟨streamId, none, .diff generationId .remove {} afterDrain⟩, initial, []⟩

end

-- A drain that may be stored: its generation, and what follows it.
structure Drains (streamId generationId : Nat) (afterDrain : AfterDrain) : Prop where
  generation : 0 < generationId
  target : validateAfterDrain streamId afterDrain = .ok ()

section

variable {Key Row : Type} [DecidableEq Key] {canonical : Row → Key} (machine : TopNMachine) (octets : Row → Nat)
  {streamId generationId : Nat} {afterDrain : AfterDrain} (drains : Drains streamId generationId afterDrain)

-- The continuation that stands for a place in the legs.
def topnPhase (generationId : Nat) (afterDrain : AfterDrain) (loop : DiffLoop Key Row) : TopNPhase :=
  if loop.finished then .cleanup generationId {} afterDrain
  else .diff generationId loop.leg ⟨loop.rowId, loop.repeats⟩ afterDrain

def topnState (streamId generationId : Nat) (afterDrain : AfterDrain) (loop : DiffLoop Key Row) : TopNDiffState Key Row :=
  ⟨some ⟨streamId, none, topnPhase generationId afterDrain loop⟩, loop.tables, loop.emitted⟩

omit [DecidableEq Key] in
theorem topn_left (loop : DiffLoop Key Row) : (topnState streamId generationId afterDrain loop).leftDiff = loop.finished := by
  unfold topnState topnPhase TopNDiffState.leftDiff
  cases loop.finished with
  | true => rfl
  | false => rfl

-- The page checks of the machine are those that every page meets.
theorem topn_page_valid {facts : PrimitiveFacts} {lastRowId : Option Int} {complete repeatCursor : Bool} {cursor : TopNDiffCursor}
    {budget : WorkBudget} (accepted : PageAccepted facts lastRowId complete repeatCursor cursor.rowId cursor.repeats budget) :
    TopNDiffPage.validate ⟨⟨facts, lastRowId, complete⟩, repeatCursor⟩ cursor budget = .ok () := by
  unfold TopNDiffPage.validate TopNPage.pageFacts
  simp only
  rw [accepted.measured, ok_bind, accepted.page, ok_bind, refuse_ok.mpr accepted.positive, ok_bind,
    refuse_ok.mpr accepted.residual, ok_bind, refuse_ok.mpr accepted.progress, ok_bind,
    refuse_ok.mpr accepted.forward, ok_bind, refuse_ok.mpr accepted.data, ok_bind]
  exact refuse_ok.mpr accepted.effects

theorem topn_cursor_valid (cursor : TopNDiffCursor) (positive : ∀ rowId, cursor.rowId = some rowId → 0 < rowId)
    (resumes : cursor.repeats = true → cursor.rowId.isSome) : cursor.validate = .ok () := by
  obtain ⟨above, rowed⟩ := cursor_checks positive resumes
  unfold TopNDiffCursor.validate
  rw [refuse_ok.mpr above, ok_bind]
  exact refuse_ok.mpr rowed

include drains

theorem topn_action (leg : DiffLeg) {cursor : TopNDiffCursor} (valid : cursor.validate = .ok ()) :
    machine.action ⟨streamId, none, .diff generationId leg cursor afterDrain⟩ = .ok (.diff generationId leg cursor) := by
  have stream : streamId ≠ 0 := by
    have target := drains.target
    unfold validateAfterDrain at target
    exact of_decide_eq_false (refuse_bind_ok.mp target).1
  unfold TopNMachine.action TopNMachine.validateContinuation validateGenerationId
  simp only
  rw [refuse_ok.mpr (decide_eq_false stream), ok_bind,
    refuse_ok.mpr (decide_eq_false (Nat.ne_of_gt drains.generation)), ok_bind, valid, ok_bind, drains.target]
  rfl

-- A step of the machine is a page of the legs.
theorem topn_step (initial : DiffTables Key Row) (loop : DiffLoop Key Row) (round : DiffRound)
    (reconciling : Reconciling canonical initial loop) (running : loop.finished = false) (offered : round.Offered) :
    topnDiffStep machine octets (topnState streamId generationId afterDrain loop) round =
      .ok (topnState streamId generationId afterDrain (loop.next octets round)) := by
  have cursor := topn_cursor_valid ⟨loop.rowId, loop.repeats⟩ reconciling.positive reconciling.resumes
  have action := topn_action machine drains loop.leg cursor
  have ran : runDiff topnDiffWords octets loop.leg loop.rowId loop.repeats loop.tables round = .ok (loop.outcome octets round) :=
    diff_ok topnDiffWords octets loop.leg loop.rowId loop.repeats loop.tables reconciling.valid offered
  have page : TopNDiffPage.validate ⟨⟨(loop.outcome octets round).facts, (loop.outcome octets round).lastRowId,
      (loop.outcome octets round).complete⟩, (loop.outcome octets round).repeatCursor⟩ ⟨loop.rowId, loop.repeats⟩ round.budget = .ok () :=
    topn_page_valid (page_accepted octets loop.leg loop.rowId loop.repeats loop.tables round reconciling.valid offered)
  unfold topnState topnPhase topnDiffStep runTopnDiff
  rw [running, if_neg Bool.false_ne_true]
  simp only
  rw [action, ok_bind]
  simp only
  rw [cursor, ok_bind, ran, ok_bind]
  change (machine.apply _ _ _ >>= fun transition => .ok _) = _
  unfold TopNMachine.apply
  rw [action, ok_bind]
  change (TopNMachine.applyDiff _ _ _ _ _ _ >>= fun transition => .ok _) = _
  unfold TopNMachine.applyDiff
  rw [page, ok_bind]
  unfold DiffLoop.next DiffLoop.after
  cases complete : (loop.outcome octets round).complete with
  | true =>
      cases leg : loop.leg with
      | remove => rfl
      | add => rfl
  | false => rfl

-- The pages of the legs are the steps of the machine.
theorem topn_follows {initial : DiffTables Key Row} (valid : initial.Valid canonical) {inputs : Nat → DiffRound}
    (offered : ∀ index, (inputs index).Offered) (count : Nat) :
    ∃ loop, diffPages octets initial inputs count = .ok loop ∧ Reconciling canonical initial loop ∧
      topnDiffSteps machine octets streamId generationId afterDrain initial inputs count =
        .ok (topnState streamId generationId afterDrain loop) :=
  Rounds.rounds_follow _ _ inputs (Reconciling canonical initial) DiffRound.Offered (fun loop _ => topn_left loop)
    (fun loop round reconciling running within => ⟨_, rfl, next_reconciling octets round within reconciling,
      topn_step machine octets drains initial loop round reconciling running within⟩)
    offered count 0 { tables := initial } (start_reconciling valid)

end

end Shiba.TopN
