import Shiba.Window.Pages
import Shiba.TopN.Diff

set_option autoImplicit false

namespace Shiba.Window

open Shiba.Execution
open Shiba.Sink (InputPosition)
open Shiba.TopN (DiffLeg)

def windowDiffWords : DiffWords where
  owner := "Window"
  inputRows := "Window diff input rows"
  outputRows := "Window diff output rows"
  inputBytes := "Window diff input bytes"
  outputBytes := "Window diff output bytes"

section

variable {Key Row : Type} [DecidableEq Key]

def runWindowDiff (octets : Row → Nat) (leg : DiffLeg) (cursor : WindowDiffCursor) (tables : DiffTables Key Row) (round : DiffRound) :
    Except Fault (WindowDiffPage × DiffOutcome Key Row) := do
  cursor.validate
  let outcome ← runDiff windowDiffWords octets leg cursor.rowId cursor.repeats tables round
  return (⟨⟨outcome.facts, outcome.lastRowId, outcome.complete⟩, outcome.repeatCursor⟩, outcome)

-- The stored continuation, the tables of its partition, and what it emitted.
structure WindowDiffState (Key Row : Type) where
  continuation : Option WindowContinuation
  tables : DiffTables Key Row
  emitted : List (Row × Int)

-- A step of a continuation whose action is a diff.
def windowDiffStep (machine : WindowMachine) (octets : Row → Nat) (state : WindowDiffState Key Row) (round : DiffRound) :
    Except Fault (WindowDiffState Key Row) :=
  match state.continuation with
  | none => .ok state
  | some continuation => do
      match ← machine.action continuation with
      | .diff _ leg cursor => do
          let (page, outcome) ← runWindowDiff octets leg cursor state.tables round
          let transition ← machine.apply continuation (.diffed page) round.budget
          return ⟨transition.continuation, outcome.tables, state.emitted ++ outcome.payload⟩
      | _ => return state

omit [DecidableEq Key] in
def WindowDiffState.leftDiff (state : WindowDiffState Key Row) : Bool :=
  match state.continuation with
  | some ⟨_, _, .diff _ _ _ _⟩ => false
  | _ => true

-- A drain from the start of its Remove leg on, for at most so many steps.
def windowDiffSteps (machine : WindowMachine) (octets : Row → Nat) (streamId partitionQueueId : Nat) (afterPartitions : AfterPartitions)
    (initial : DiffTables Key Row) (inputs : Nat → DiffRound) (count : Nat) : Except Fault (WindowDiffState Key Row) :=
  Rounds.rounds (windowDiffStep machine octets) WindowDiffState.leftDiff inputs count 0
    ⟨some ⟨streamId, none, .diff partitionQueueId .remove {} afterPartitions⟩, initial, []⟩

end

-- A drain that may be stored: its partition, and what follows it.
structure Drains (streamId partitionQueueId : Nat) (afterPartitions : AfterPartitions) : Prop where
  partition : 0 < partitionQueueId
  target : validateAfterPartitions streamId afterPartitions = .ok ()

section

variable {Key Row : Type} [DecidableEq Key] {canonical : Row → Key} (machine : WindowMachine) (octets : Row → Nat)
  {streamId partitionQueueId : Nat} {afterPartitions : AfterPartitions} (drains : Drains streamId partitionQueueId afterPartitions)

-- The continuation that stands for a place in the legs.
def windowPhase (partitionQueueId : Nat) (afterPartitions : AfterPartitions) (loop : DiffLoop Key Row) : WindowPhase :=
  if loop.finished then .cleanup partitionQueueId {} afterPartitions
  else .diff partitionQueueId loop.leg ⟨loop.rowId, loop.repeats⟩ afterPartitions

def windowState (streamId partitionQueueId : Nat) (afterPartitions : AfterPartitions) (loop : DiffLoop Key Row) : WindowDiffState Key Row :=
  ⟨some ⟨streamId, none, windowPhase partitionQueueId afterPartitions loop⟩, loop.tables, loop.emitted⟩

omit [DecidableEq Key] in
theorem window_left (loop : DiffLoop Key Row) : (windowState streamId partitionQueueId afterPartitions loop).leftDiff = loop.finished := by
  unfold windowState windowPhase WindowDiffState.leftDiff
  cases loop.finished with
  | true => rfl
  | false => rfl

-- The page checks of the machine are those that every page meets.
theorem window_page_valid {facts : PrimitiveFacts} {lastRowId : Option Int} {complete repeatCursor : Bool} {cursor : WindowDiffCursor}
    {budget : WorkBudget} (accepted : PageAccepted facts lastRowId complete repeatCursor cursor.rowId cursor.repeats budget) :
    WindowDiffPage.validate ⟨⟨facts, lastRowId, complete⟩, repeatCursor⟩ cursor budget = .ok () := by
  unfold WindowDiffPage.validate WindowPage.pageFacts
  simp only
  rw [accepted.measured, ok_bind, accepted.page, ok_bind, refuse_ok.mpr accepted.positive, ok_bind,
    refuse_ok.mpr accepted.residual, ok_bind, refuse_ok.mpr accepted.progress, ok_bind,
    refuse_ok.mpr accepted.forward, ok_bind, refuse_ok.mpr accepted.data, ok_bind]
  exact refuse_ok.mpr accepted.effects

theorem window_cursor_valid (cursor : WindowDiffCursor) (positive : ∀ rowId, cursor.rowId = some rowId → 0 < rowId)
    (resumes : cursor.repeats = true → cursor.rowId.isSome) : cursor.validate = .ok () := by
  obtain ⟨above, rowed⟩ := cursor_checks positive resumes
  unfold WindowDiffCursor.validate
  rw [refuse_ok.mpr above, ok_bind]
  exact refuse_ok.mpr rowed

include drains

theorem window_action (leg : DiffLeg) {cursor : WindowDiffCursor} (valid : cursor.validate = .ok ()) :
    machine.action ⟨streamId, none, .diff partitionQueueId leg cursor afterPartitions⟩ = .ok (.diff partitionQueueId leg cursor) := by
  have stream : streamId ≠ 0 := by
    have target := drains.target
    unfold validateAfterPartitions at target
    exact of_decide_eq_false (refuse_bind_ok.mp target).1
  have placed : (decide (streamId = 0) || Option.any (fun input : InputPosition => decide (input.streamId ≠ streamId)) none) = false := by
    rw [decide_eq_false stream]
    rfl
  unfold WindowMachine.action WindowMachine.validateContinuation WindowMachine.validateDrain validateQueueId
  simp only
  rw [refuse_ok.mpr placed, ok_bind, refuse_ok.mpr (decide_eq_false (Nat.ne_of_gt drains.partition)), ok_bind, valid,
    ok_bind, drains.target]
  rfl

-- A step of the machine is a page of the legs.
theorem window_step (initial : DiffTables Key Row) (loop : DiffLoop Key Row) (round : DiffRound)
    (reconciling : Reconciling canonical initial loop) (running : loop.finished = false) (offered : round.Offered) :
    windowDiffStep machine octets (windowState streamId partitionQueueId afterPartitions loop) round =
      .ok (windowState streamId partitionQueueId afterPartitions (loop.next octets round)) := by
  have cursor := window_cursor_valid ⟨loop.rowId, loop.repeats⟩ reconciling.positive reconciling.resumes
  have action := window_action machine drains loop.leg cursor
  have ran : runDiff windowDiffWords octets loop.leg loop.rowId loop.repeats loop.tables round = .ok (loop.outcome octets round) :=
    diff_ok windowDiffWords octets loop.leg loop.rowId loop.repeats loop.tables reconciling.valid offered
  have page : WindowDiffPage.validate ⟨⟨(loop.outcome octets round).facts, (loop.outcome octets round).lastRowId,
      (loop.outcome octets round).complete⟩, (loop.outcome octets round).repeatCursor⟩ ⟨loop.rowId, loop.repeats⟩ round.budget = .ok () :=
    window_page_valid (page_accepted octets loop.leg loop.rowId loop.repeats loop.tables round reconciling.valid offered)
  unfold windowState windowPhase windowDiffStep runWindowDiff
  rw [running, if_neg Bool.false_ne_true]
  simp only
  rw [action, ok_bind]
  simp only
  rw [cursor, ok_bind, ran, ok_bind]
  change (machine.apply _ _ _ >>= fun transition => .ok _) = _
  unfold WindowMachine.apply
  rw [action, ok_bind]
  change (WindowMachine.applyDiff _ _ _ _ _ _ >>= fun transition => .ok _) = _
  unfold WindowMachine.applyDiff
  rw [page, ok_bind]
  unfold DiffLoop.next DiffLoop.after
  cases complete : (loop.outcome octets round).complete with
  | true =>
      cases leg : loop.leg with
      | remove => rfl
      | add => rfl
  | false => rfl

-- The pages of the legs are the steps of the machine.
theorem window_follows {initial : DiffTables Key Row} (valid : initial.Valid canonical) {inputs : Nat → DiffRound}
    (offered : ∀ index, (inputs index).Offered) (count : Nat) :
    ∃ loop, diffPages octets initial inputs count = .ok loop ∧ Reconciling canonical initial loop ∧
      windowDiffSteps machine octets streamId partitionQueueId afterPartitions initial inputs count =
        .ok (windowState streamId partitionQueueId afterPartitions loop) :=
  Rounds.rounds_follow _ _ inputs (Reconciling canonical initial) DiffRound.Offered (fun loop _ => window_left loop)
    (fun loop round reconciling running within => ⟨_, rfl, next_reconciling octets round within reconciling,
      window_step machine octets drains initial loop round reconciling running within⟩)
    offered count 0 { tables := initial } (start_reconciling valid)

end

section

variable {Key Row : Type} [DecidableEq Key] (canonical : Row → Key) (octets : Row → Nat) (initial : DiffTables Key Row)
  (inputs : Nat → DiffRound)

end

section

-- One visible row with more copies than a weight holds, and another candidate.
def overfull : DiffTables Nat Nat := ⟨[⟨1, 7, 7, bigintMax + 3⟩], [⟨1, 8, 8, 2⟩], 2⟩

def narrowRound : DiffRound := ⟨twoRows, ⟨1, 64, 8, 8, 512, 4, 4, 256⟩, 1⟩

theorem single_keyed (row : DiffRow Nat Nat) (positive : 0 < row.rowId) (present : 0 < row.multiplicity)
    (imaged : row.outputKey = row.outputRow) : WellKeyed id [row] := by
  refine ⟨List.pairwise_singleton _ _, ?_, List.pairwise_singleton _ _, ?_, ?_⟩
  · intro other member
    rw [List.mem_singleton.mp member]
    exact positive
  · intro other member
    rw [List.mem_singleton.mp member]
    exact present
  · intro other member
    rw [List.mem_singleton.mp member]
    exact imaged

theorem overfull_valid : overfull.Valid id := by
  refine ⟨single_keyed _ Int.one_pos (Nat.succ_pos _) rfl, single_keyed _ Int.one_pos Nat.two_pos rfl, ?_, Int.lt_add_one_of_le Int.one_pos.le⟩
  intro row member
  rw [List.mem_singleton.mp member]
  exact Int.lt_succ 1

theorem narrow_offered : narrowRound.Offered := ⟨by decide, by decide, by decide, by decide, Nat.one_pos, Nat.one_pos⟩

end

end Shiba.Window
