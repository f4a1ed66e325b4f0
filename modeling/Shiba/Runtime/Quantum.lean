import Shiba.Execution.Quantum
import Shiba.Linear.Exact

set_option autoImplicit false

namespace Shiba.Runtime

open Shiba.Stream Shiba.Execution

-- What execute_step does for one stage. An execution that did not commit wrote
-- nothing.
structure Executor (State : Type) where
  execute : State → WorkBudget → Except Fault (State × StepExecution)
  observes : ∀ state budget after execution, execute state budget = .ok (after, execution) →
    execution.transaction = .notCommitted → after = state

-- `stages` is the number of stages of the plan.
structure LoadedDataflow where
  stages : Nat
  stageCursor : Option Nat
deriving DecidableEq, Repr

structure OperatorStep where
  stageId : Nat
  outcome : StepOutcome
  transitions : Nat
deriving DecidableEq, Repr

section Loop

variable {State : Type} (executor : Executor State)

-- The body of the loop as often as the quantum has transitions left.
def quantumLoop : Nat → State → WorkQuantum → StepOutcome → Except Fault (State × WorkQuantum × StepOutcome)
  | 0, state, quantum, outcome => .ok (state, quantum, outcome)
  | rounds + 1, state, quantum, outcome =>
      match quantum.remaining with
      | none => .ok (state, quantum, outcome)
      | some remaining => do
          let (state, execution) ← executor.execute state remaining
          execution.validate
          if execution.outcome.isCommit then
            let quantum ← quantum.record execution.usage
            if execution.usage.isEmpty then quantumLoop rounds state quantum execution.outcome
            else return (state, quantum, execution.outcome)
          else return (state, quantum, execution.outcome)

def runQuantum (state : State) (budget : WorkBudget) (maxTransitions : Nat) (positive : 0 < maxTransitions) :
    Except Fault (State × WorkQuantum × StepOutcome) :=
  quantumLoop executor maxTransitions state
    { budget, maxTransitions, transitionsPositive := positive } .idle

def stepQuantum (dataflow : LoadedDataflow) (stageId : Nat) (state : State) (budget : WorkBudget) (maxTransitions : Nat)
    (positive : 0 < maxTransitions) : Except Fault (LoadedDataflow × State × OperatorStep) := do
  refuse (decide (dataflow.stages ≤ stageId)) "durable readiness selected a stage outside its dataflow plan"
  let (state, quantum, outcome) ← runQuantum executor state budget maxTransitions positive
  return ({ dataflow with stageCursor := some stageId }, state, ⟨stageId, outcome, quantum.transitions⟩)

-- The executions of a run that committed, by their usage.
inductive Commits : State → List WorkUsage → State → Prop where
  | none (state : State) : Commits state [] state
  | next (state middle last : State) (budget : WorkBudget) (execution : StepExecution) (rest : List WorkUsage)
      (executed : executor.execute state budget = .ok (middle, execution)) (committed : execution.transaction = .committed)
      (later : Commits middle rest last) : Commits state (execution.usage :: rest) last

-- Commits of no rows or bytes, each with the whole budget.
inductive MetadataRun (budget : WorkBudget) : Nat → State → State → Prop where
  | none (state : State) : MetadataRun budget 0 state state
  | more (count : Nat) (state middle last : State) (execution : StepExecution)
      (executed : executor.execute state budget = .ok (middle, execution)) (valid : execution.validate = .ok ())
      (committed : execution.outcome.isCommit = true) (empty : execution.usage.isEmpty = true)
      (later : MetadataRun budget count middle last) : MetadataRun budget (count + 1) state last

-- The executor has nothing more to do after it has committed metadata only.
def Interrupted (state : State) (budget : WorkBudget) (maxTransitions : Nat) : Prop :=
  ∃ count middle after execution, 0 < count ∧ count < maxTransitions ∧ MetadataRun executor budget count state middle ∧
    executor.execute middle budget = .ok (after, execution) ∧ execution.outcome.isCommit = false

end Loop

def totalUsage (usages : List WorkUsage) : WorkUsage :=
  ⟨(usages.map WorkUsage.inputRows).sum, (usages.map WorkUsage.inputBytes).sum, (usages.map WorkUsage.outputRows).sum,
    (usages.map WorkUsage.outputBytes).sum⟩

theorem committed_outcome {execution : StepExecution} (valid : execution.validate = .ok ()) :
    execution.transaction = .committed ↔ execution.outcome.isCommit = true := by
  unfold StepExecution.validate at valid
  cases transaction : execution.transaction with
  | committed =>
      rw [transaction] at valid
      simp only [refuse_ok, Bool.not_eq_false'] at valid
      exact ⟨fun _ => valid, fun _ => rfl⟩
  | notCommitted =>
      rw [transaction] at valid
      simp only [refuse_ok] at valid
      rw [valid]
      constructor <;> intro wrong <;> cases wrong

theorem empty_usage {usage : WorkUsage} (empty : usage.isEmpty = true) : usage = {} := by
  simp only [WorkUsage.isEmpty, Bool.and_eq_true, decide_eq_true_eq] at empty
  obtain ⟨⟨⟨inputRows, inputBytes⟩, outputRows⟩, outputBytes⟩ := empty
  cases usage
  simp_all

section Merge

variable {State : Type} (executor : Executor State)

theorem commits_append (state middle last : State) (first second : List WorkUsage) (before : Commits executor state first middle)
    (after : Commits executor middle second last) : Commits executor state (first ++ second) last := by
  induction before with
  | none state => exact after
  | next state next _ budget execution rest executed committed later ih =>
      exact Commits.next state next last budget execution (rest ++ second) executed committed (ih after)

section

variable {last state : State} {count : Nat} {budget : WorkBudget}

theorem metadata_commits (ran : MetadataRun executor budget count state last) :
    Commits executor state (List.replicate count {}) last := by
  induction ran with
  | none state => exact Commits.none state
  | more count state middle last execution executed valid committed empty later ih =>
      have next := Commits.next state middle last budget execution _ executed ((committed_outcome valid).mpr committed) ih
      rwa [empty_usage empty] at next

-- Runs of metadata commits from one state are parts of each other.
theorem metadata_part (shorter : Nat) (ran : MetadataRun executor budget count state last) (short : shorter < count) :
    ∃ middle after execution,
      MetadataRun executor budget shorter state middle ∧ executor.execute middle budget = .ok (after, execution) ∧
      execution.outcome.isCommit = true ∧ execution.usage.isEmpty = true := by
  induction ran generalizing shorter with
  | none state => exact absurd short (Nat.not_lt_zero _)
  | more count state middle last execution executed valid committed empty later ih =>
      cases shorter with
      | zero => exact ⟨state, middle, execution, MetadataRun.none state, executed, committed, empty⟩
      | succ shorter =>
          obtain ⟨here, after, next, part, ran, commit, nothing⟩ := ih shorter (Nat.lt_of_succ_lt_succ short)
          exact ⟨here, after, next, MetadataRun.more shorter state middle here execution executed valid committed empty part, ran,
            commit, nothing⟩

theorem metadata_unique {first second : State} (ran : MetadataRun executor budget count state first)
    (other : MetadataRun executor budget count state second) :
    first = second := by
  induction ran with
  | none state =>
      cases other
      rfl
  | more count state middle last execution executed valid committed empty later ih =>
      cases other with
      | more _ _ otherMiddle _ otherExecution otherExecuted _ _ _ otherLater =>
          obtain ⟨rfl, _⟩ := Prod.mk.inj (Except.ok.inj (executed.symm.trans otherExecuted))
          exact ih otherLater

end

-- A quantum in which nothing was read or written yet.
def blank (budget : WorkBudget) (maxTransitions : Nat) (positive : 0 < maxTransitions) (transitions : Nat) : WorkQuantum :=
  { budget, transitions, maxTransitions, transitionsPositive := positive }

variable (budget : WorkBudget) (maxTransitions : Nat) (positive : 0 < maxTransitions)

theorem blank_remaining (transitions : Nat) (some : transitions < maxTransitions) :
    (blank budget maxTransitions positive transitions).remaining = Option.some budget :=
  dif_pos ⟨some, budget.inputRowsPositive, budget.inputBytesPositive, budget.outputRowsPositive, budget.outputBytesPositive⟩

theorem blank_record {transitions : Nat} {usage : WorkUsage} {quantum : WorkQuantum}
    (recorded : (blank budget maxTransitions positive transitions).record usage = .ok quantum) :
    quantum = { blank budget maxTransitions positive (transitions + 1) with used := usage } := by
  unfold WorkQuantum.record at recorded
  obtain ⟨_, recorded⟩ := refuse_bind_ok.mp recorded
  obtain ⟨used, added, recorded⟩ := bind_ok_iff.mp recorded
  obtain rfl := Except.ok.inj recorded
  have kept : ∀ amount dimension total, checkedUsage 0 amount dimension = .ok total → total = amount := by
    intro amount dimension total counted
    unfold checkedUsage checkedU64 at counted
    rw [Nat.zero_add] at counted
    by_cases word : amount ≤ u64Max
    · rw [if_pos word] at counted
      exact (Except.ok.inj counted).symm
    · rw [if_neg word] at counted
      cases counted
  have same : used = usage := by
    unfold WorkUsage.checkedAdd at added
    obtain ⟨inputRows, first, added⟩ := bind_ok_iff.mp added
    obtain ⟨inputBytes, second, added⟩ := bind_ok_iff.mp added
    obtain ⟨outputRows, third, added⟩ := bind_ok_iff.mp added
    obtain ⟨outputBytes, fourth, added⟩ := bind_ok_iff.mp added
    obtain rfl := Except.ok.inj added
    rw [kept _ _ _ first, kept _ _ _ second, kept _ _ _ third, kept _ _ _ fourth]
  rw [same]
  rfl

-- The loop runs through metadata commits and ends when it is out of transitions,
-- or with what the executor does next.
theorem loop_ends (rounds transitions : Nat) (state : State) {after : State} (outcome : StepOutcome) {final : StepOutcome} {quantum : WorkQuantum}
    (rest : transitions + rounds = maxTransitions)
    (ran : quantumLoop executor rounds state (blank budget maxTransitions positive transitions) outcome =
      .ok (after, quantum, final)) :
    ∃ count middle, MetadataRun executor budget count state middle ∧
      ((count = rounds ∧ after = middle ∧ quantum = blank budget maxTransitions positive (transitions + count) ∧
          (count = 0 ∧ final = outcome ∨ final.isCommit = true)) ∨
        ∃ execution, count < rounds ∧ executor.execute middle budget = .ok (after, execution) ∧
          execution.validate = .ok () ∧ final = execution.outcome ∧
          ((execution.outcome.isCommit = false ∧ quantum = blank budget maxTransitions positive (transitions + count)) ∨
            (execution.outcome.isCommit = true ∧ execution.usage.isEmpty = false ∧
              quantum = { blank budget maxTransitions positive (transitions + count + 1) with used := execution.usage }))) := by
  induction rounds generalizing transitions state outcome with
  | zero =>
      obtain ⟨rfl, same⟩ := Prod.mk.inj (Except.ok.inj ran)
      obtain ⟨rfl, rfl⟩ := Prod.mk.inj same
      exact ⟨0, state, MetadataRun.none state, .inl ⟨rfl, rfl, rfl, .inl ⟨rfl, rfl⟩⟩⟩
  | succ rounds ih =>
      rw [quantumLoop, blank_remaining budget maxTransitions positive transitions (by omega)] at ran
      obtain ⟨⟨next, execution⟩, executed, ran⟩ := bind_ok_iff.mp ran
      obtain ⟨_, valid, ran⟩ := bind_ok_iff.mp ran
      cases commit : execution.outcome.isCommit with
      | false =>
          rw [commit] at ran
          obtain ⟨rfl, same⟩ := Prod.mk.inj (Except.ok.inj ran)
          obtain ⟨rfl, rfl⟩ := Prod.mk.inj same
          exact ⟨0, state, MetadataRun.none state,
            .inr ⟨execution, Nat.succ_pos rounds, executed, valid, rfl, .inl ⟨commit, rfl⟩⟩⟩
      | true =>
          rw [commit] at ran
          obtain ⟨recorded, isRecord, ran⟩ := bind_ok_iff.mp ran
          have isNext := blank_record budget maxTransitions positive isRecord
          cases empty : execution.usage.isEmpty with
          | false =>
              rw [empty] at ran
              obtain ⟨rfl, same⟩ := Prod.mk.inj (Except.ok.inj ran)
              obtain ⟨rfl, rfl⟩ := Prod.mk.inj same
              exact ⟨0, state, MetadataRun.none state,
                .inr ⟨execution, Nat.succ_pos rounds, executed, valid, rfl, .inr ⟨commit, empty, isNext⟩⟩⟩
          | true =>
              rw [empty_usage empty] at isNext
              rw [empty, isNext] at ran
              obtain ⟨count, middle, metadata, ends⟩ := ih (transitions + 1) next execution.outcome (by omega) ran
              have onward := MetadataRun.more count state next middle execution executed valid commit empty metadata
              have shifted : transitions + 1 + count = transitions + (count + 1) := by omega
              rw [shifted] at ends
              refine ⟨count + 1, middle, onward, ?_⟩
              cases ends with
              | inl done =>
                  obtain ⟨whole, same, isBlank, either⟩ := done
                  refine .inl ⟨congrArg (· + 1) whole, same, isBlank, .inr ?_⟩
                  cases either with
                  | inl none =>
                      rw [none.2]
                      exact commit
                  | inr committed => exact committed
              | inr stopped =>
                  obtain ⟨last, few, stops⟩ := stopped
                  exact .inr ⟨last, Nat.succ_lt_succ few, stops⟩

omit positive in
-- Where the metadata commits end decides whether the executor stopped after them.
theorem interrupted_at {count : Nat} {state middle : State} (ran : MetadataRun executor budget count state middle)
    (within : count ≤ maxTransitions)
    (ends : count < maxTransitions → ∃ after execution, executor.execute middle budget = .ok (after, execution) ∧
      ¬ (execution.outcome.isCommit = true ∧ execution.usage.isEmpty = true)) :
    Interrupted executor state budget maxTransitions ↔ 0 < count ∧ count < maxTransitions ∧
      ∃ after execution, executor.execute middle budget = .ok (after, execution) ∧ execution.outcome.isCommit = false := by
  constructor
  · intro interrupted
    obtain ⟨other, here, after, execution, some, few, part, executed, stops⟩ := interrupted
    have notShorter : ¬ other < count := by
      intro shorter
      obtain ⟨place, next, commit, onward, ran, isCommit, _⟩ := metadata_part executor other ran shorter
      rw [metadata_unique executor onward part] at ran
      obtain ⟨_, rfl⟩ := Prod.mk.inj (Except.ok.inj (ran.symm.trans executed))
      rw [stops] at isCommit
      cases isCommit
    have notLonger : ¬ count < other := by
      intro longer
      obtain ⟨place, next, commit, onward, went, isCommit, isEmpty⟩ := metadata_part executor count part longer
      rw [metadata_unique executor onward ran] at went
      obtain ⟨_, last, isLast, notMetadata⟩ := ends (Nat.lt_trans longer few)
      obtain ⟨_, rfl⟩ := Prod.mk.inj (Except.ok.inj (isLast.symm.trans went))
      exact notMetadata ⟨isCommit, isEmpty⟩
    obtain rfl : other = count := by omega
    rw [metadata_unique executor part ran] at executed
    exact ⟨some, few, after, execution, executed, stops⟩
  · intro stopped
    obtain ⟨some, few, after, execution, executed, stops⟩ := stopped
    exact ⟨count, middle, after, execution, some, few, ran, executed, stops⟩

-- What the report of a quantum owes to its commits.
structure Merged (state after : State) (commits : List WorkUsage) (outcome : StepOutcome) : Prop where
  commit : commits ≠ [] → outcome.isCommit = true
  idle : outcome = .idle → after = state
  blocked : outcome = .blocked → after = state

omit budget maxTransitions positive executor in
theorem merged_commit (state after : State) (commits : List WorkUsage) {outcome : StepOutcome}
    (commit : outcome.isCommit = true) : Merged state after commits outcome := by
  refine ⟨fun _ => commit, ?_, ?_⟩
  · intro isIdle
    rw [isIdle] at commit
    cases commit
  · intro isBlocked
    rw [isBlocked] at commit
    cases commit

-- The outcome is that of the last execution, so commits are reported unless the
-- executor ran out of work after a metadata-only one.
theorem quantum_merges (dataflow next : LoadedDataflow) (stageId : Nat) (state after : State) (step : OperatorStep)
    (stepped : stepQuantum executor dataflow stageId state budget maxTransitions positive = .ok (next, after, step)) :
    ∃ commits quantum, Commits executor state commits after ∧
      runQuantum executor state budget maxTransitions positive = .ok (after, quantum, step.outcome) ∧
      step.transitions = commits.length ∧ quantum.used = totalUsage commits ∧
      (Merged state after commits step.outcome ↔ ¬ Interrupted executor state budget maxTransitions) := by
  unfold stepQuantum at stepped
  obtain ⟨_, stepped⟩ := refuse_bind_ok.mp stepped
  obtain ⟨⟨last, quantum, outcome⟩, ran, stepped⟩ := bind_ok_iff.mp stepped
  obtain ⟨_, same⟩ := Prod.mk.inj (Except.ok.inj stepped)
  obtain ⟨rfl, rfl⟩ := Prod.mk.inj same
  obtain ⟨count, middle, metadata, ends⟩ := loop_ends executor budget maxTransitions positive maxTransitions 0 state .idle (Nat.zero_add _) ran
  have listed := metadata_commits executor metadata
  have nothing : totalUsage (List.replicate count {}) = {} := by simp [totalUsage]
  rw [Nat.zero_add] at ends
  rcases ends with ⟨rfl, rfl, rfl, either⟩ | ⟨execution, few, executed, valid, rfl, ⟨stops, rfl⟩ | ⟨commit, some, rfl⟩⟩
  · refine ⟨_, _, listed, ran, (List.length_replicate).symm, nothing.symm, ?_⟩
    have commits : outcome.isCommit = true := by
      rcases either with ⟨none, _⟩ | committed
      · exact absurd none (Nat.ne_of_gt positive)
      · exact committed
    rw [interrupted_at executor budget count metadata (Nat.le_refl count) fun few => absurd few (Nat.lt_irrefl _)]
    exact ⟨fun _ stopped => Nat.lt_irrefl count stopped.2.1, fun _ => merged_commit state last _ commits⟩
  · have unchanged := executor.observes middle budget last execution executed (by
      cases result : execution.transaction with
      | committed =>
          rw [(committed_outcome valid).mp result] at stops
          cases stops
      | notCommitted => rfl)
    subst unchanged
    refine ⟨_, _, listed, ran, (List.length_replicate).symm, nothing.symm, ?_⟩
    rw [interrupted_at executor budget maxTransitions metadata (Nat.le_of_lt few)
      fun _ => ⟨last, execution, executed, fun both => by rw [stops] at both; cases both.1⟩]
    constructor
    · intro merged stopped
      have commits := merged.commit (by
        intro none
        have length := congrArg List.length none
        rw [List.length_replicate, List.length_nil] at length
        omega)
      rw [stops] at commits
      cases commits
    · intro quiet
      have none : count = 0 := by
        by_contra some
        exact quiet ⟨Nat.pos_of_ne_zero some, few, last, execution, executed, stops⟩
      subst none
      cases metadata
      exact ⟨fun some => absurd rfl some, fun _ => rfl, fun _ => rfl⟩
  · have appended := commits_append executor state middle last _ [execution.usage] listed
      (Commits.next middle last last budget execution [] executed ((committed_outcome valid).mpr commit) (Commits.none last))
    refine ⟨_, _, appended, ran, ?_, ?_, ?_⟩
    · simp [blank]
    · simp [totalUsage]
    · rw [interrupted_at executor budget maxTransitions metadata (Nat.le_of_lt few)
        fun _ => ⟨last, execution, executed, fun both => by rw [some] at both; cases both.2⟩]
      constructor
      · intro _ stopped
        obtain ⟨_, _, after, other, again, stops⟩ := stopped
        obtain ⟨_, rfl⟩ := Prod.mk.inj (Except.ok.inj (executed.symm.trans again))
        rw [commit] at stops
        cases stops
      · exact fun _ => merged_commit state last _ commit

end Merge

section Kernel

variable {Row Out Cont State : Type} (phases : List KernelPhase) (fromSource : Bool)
  (kernel : StepContext Row Out Cont State → Except Fault (StepContext Row Out Cont State × StepReceipt)) (key : ConsumerKey)

-- A kernel is blocked or idle before it writes.
theorem kernel_observes (tables : StageTables Row Out Cont State) (budget : WorkBudget)
    (after : StageTables Row Out Cont State) (execution : StepExecution)
    (executed : executeKernel phases fromSource kernel key tables budget = .ok (after, execution))
    (waited : execution.transaction = .notCommitted) : after = tables := by
  unfold executeKernel at executed
  obtain ⟨start, _, executed⟩ := bind_ok_iff.mp executed
  cases start with
  | blocked | idle => exact (Prod.mk.inj (Except.ok.inj executed)).1.symm
  | ready context =>
      obtain ⟨_, executed⟩ := refuse_bind_ok.mp executed
      obtain ⟨⟨stepped, receipt⟩, _, executed⟩ := bind_ok_iff.mp executed
      obtain ⟨_, executed⟩ := refuse_bind_ok.mp executed
      obtain ⟨committed, _, executed⟩ := bind_ok_iff.mp executed
      obtain ⟨_, rfl⟩ := Prod.mk.inj (Except.ok.inj executed)
      cases waited

def kernelExecutor : Executor (StageTables Row Out Cont State) where
  execute := executeKernel phases fromSource kernel key
  observes := kernel_observes phases fromSource kernel key

end Kernel

section Example

open Transition Shiba.Linear Shiba.Linear.Transform

def filterExecutor : Executor (TransformTables Nat Nat) :=
  kernelExecutor [.admitted, .process, .frontier] false (executeTransform evenRows) scanConsumer

-- All that the Filter has before it is a frontier.
def passingFilter : TransformTables Nat Nat :=
  { registeredFilter with input := attempts historyStep registeredFilter.input [.append 1 .frontier 0 0 10 []] }

-- A first step takes it over and a second finds nothing, so a quantum that
-- committed reports that the Filter is idle.
def passedFilter : TransformTables Nat Nat :=
  match filterExecutor.execute passingFilter narrowBudget with
  | .ok (after, _) => after
  | .error _ => passingFilter

theorem filter_passes : filterExecutor.execute passingFilter narrowBudget = .ok (passedFilter, ⟨.progress, {}, .committed⟩) := by
  decide

theorem quantum_reports_idle :
    stepQuantum filterExecutor ⟨2, none⟩ 1 passingFilter narrowBudget 64 (by decide) =
      .ok (⟨2, some 1⟩, passedFilter, ⟨1, .idle, 1⟩) ∧
    Commits filterExecutor passingFilter [{}] passedFilter ∧ passedFilter ≠ passingFilter ∧
    ¬ Merged passingFilter passedFilter [{}] .idle := by
  refine ⟨by decide, ?_, by decide, ?_⟩
  · exact Commits.next passingFilter passedFilter passedFilter narrowBudget ⟨.progress, {}, .committed⟩ [] filter_passes rfl
      (Commits.none passedFilter)
  · intro merged
    have commit := merged.commit (List.cons_ne_nil _ _)
    cases commit

-- With rows before it a quantum ends with the page that reads them.
theorem quantum_merges_page : ∃ after commits, Commits filterExecutor fedFilter commits after ∧ commits.length = 1 ∧
    (Merged fedFilter after commits .yielded ↔ ¬ Interrupted filterExecutor fedFilter narrowBudget 64) := by
  have stepped : (stepQuantum filterExecutor ⟨2, none⟩ 1 fedFilter narrowBudget 64 (by decide)).map
      (fun result => (result.1, result.2.2)) = .ok (⟨2, some 1⟩, ⟨1, .yielded, 1⟩) := by decide
  obtain ⟨⟨next, after, step⟩, ran, same⟩ := except_map_ok stepped
  obtain ⟨rfl, rfl⟩ := Prod.mk.inj same
  obtain ⟨commits, quantum, committed, _, counted, _, merges⟩ := quantum_merges filterExecutor narrowBudget 64 (by decide)
    ⟨2, none⟩ ⟨2, some 1⟩ 1 fedFilter after ⟨1, .yielded, 1⟩ ran
  exact ⟨after, commits, committed, counted.symm, merges⟩

end Example

end Shiba.Runtime
