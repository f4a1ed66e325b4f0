import Shiba.Distinct.Stage

set_option autoImplicit false

namespace Shiba.Distinct

open Budget Weighted Shiba.Stream Shiba.Execution Shiba.Execution.StepContext Shiba.Linear Shiba.Linear.Transform
open Shiba.Sink (InputPosition)

variable {Row Key Out Bytes : Type}

theorem apply_ordinary : DistinctPhase.apply ≠ .frontier := by decide

theorem drain_ordinary : DistinctPhase.drain ≠ .frontier := by decide

theorem position_ok {streamId chunkSeq : Nat} (rowOrdinal : Nat) (stream : 0 < streamId) (sequence : 0 < chunkSeq) :
    InputPosition.new streamId chunkSeq rowOrdinal = .ok ⟨streamId, chunkSeq, rowOrdinal⟩ := by
  simp [InputPosition.new, Nat.ne_of_gt stream, Nat.ne_of_gt sequence, refuse, bind, Except.bind, pure, Except.pure]

section Machine

variable (input : InputPosition) (stream : 0 < input.streamId) (sequence : 0 < input.chunkSeq) (facts : PrimitiveFacts)
  (touched queued : Nat) (next : Option DistinctContinuation) (budget : WorkBudget)

-- A continuation that goes on from an input position.
def GoesOn (input : InputPosition) (consumes : Bool) (next : Option DistinctContinuation) : Prop :=
  ∀ after, next = some after → after.input.streamId = input.streamId ∧ after.input.chunkSeq = input.chunkSeq ∧
    (if consumes then input.rowOrdinal < after.input.rowOrdinal else after.input.rowOrdinal = input.rowOrdinal) ∧
    after.phase ≠ .frontier

include stream sequence

theorem validate_input_ok : DistinctMachine.validateInput input = .ok () := by
  rw [DistinctMachine.validateInput, refuse_ok]
  simp [Nat.ne_of_gt stream, Nat.ne_of_gt sequence]

theorem goes_on_advances (consumes : Bool) (goes : GoesOn input consumes next) (after : DistinctContinuation)
    (isNext : next = some after) : DistinctMachine.validateInput after.input = .ok () ∧
      DistinctMachine.advances consumes input after = true := by
  obtain ⟨sameStream, sameSeq, moved, phase⟩ := goes after isNext
  refine ⟨validate_input_ok after.input (sameStream ▸ stream) (sameSeq ▸ sequence), ?_⟩
  unfold DistinctMachine.advances
  rw [sameStream, sameSeq]
  cases consumes with
  | true => simpa [phase] using moved
  | false => simpa [phase] using moved

theorem machine_applies (someRows : facts.usage.inputRows ≠ 0) (unwritten : facts.usage.outputRows = 0)
    (silent : facts.output = .none) (few : touched ≤ facts.usage.inputRows)
    (handoff : 0 < queued ↔ DistinctMachine.drainsNext next = true) (goes : GoesOn input true next)
    (valid : facts.usage.validate budget = .ok ()) :
    DistinctMachine.apply ⟨input, .apply⟩ (.applied ⟨facts, ⟨touched, queued⟩, next⟩) budget = .ok next := by
  have accepted := validate_input_ok input stream sequence
  have follows := goes_on_advances input stream sequence next true goes
  have agrees : (decide (0 < queued) == DistinctMachine.drainsNext next) = true := by
    rw [beq_iff_eq, Bool.eq_iff_iff, decide_eq_true_iff]
    exact handoff
  have protocol : facts.validateProtocol budget .admitted (if next.isSome then .continuing else .finished) = .ok () := by
    simp [PrimitiveFacts.validateProtocol, PrimitiveFacts.validate, valid, silent, unwritten, refuse, bind, Except.bind,
      OutputFacts.isFrontier, OutputFacts.isData]
  unfold DistinctMachine.apply DistinctMachine.action DistinctMachine.applyPrefix
  simp only [accepted, ok_bind, reduceCtorEq, decide_false, Bool.false_and, refuse, Bool.false_eq_true, if_false, pure_bind,
    someRows, Bool.true_and, Bool.not_true, Nat.not_lt.mpr few, DistinctMachine.handoffFits, unwritten, silent, decide_true,
    agrees, DistinctMachine.outputFits, if_true, protocol]
  cases isNext : next with
  | none => rfl
  | some after =>
      obtain ⟨inside, advances⟩ := follows after isNext
      simp only [inside, advances, ok_bind, Bool.not_true, Bool.false_eq_true, if_false]
      rfl

theorem machine_drains (reads : facts.usage.inputRows = 0 ∧ facts.usage.inputBytes = 0) {number : Nat} (some : number ≠ 0)
    (written : facts.usage.outputRows ≠ 0) (data : facts.output = .data number) (goes : GoesOn input false next)
    (valid : facts.usage.validate budget = .ok ()) :
    DistinctMachine.apply ⟨input, .drain⟩ (.drained ⟨facts, { externalEffects := facts.usage.outputRows }, next⟩) budget =
      .ok next := by
  have accepted := validate_input_ok input stream sequence
  have follows := goes_on_advances input stream sequence next false goes
  have rows : 0 < facts.usage.outputRows := Nat.pos_of_ne_zero written
  have protocol : facts.validateProtocol budget .drain (if next.isSome then .continuing else .finished) = .ok () := by
    simp [PrimitiveFacts.validateProtocol, PrimitiveFacts.validate, valid, data, written, some, refuse, bind, Except.bind,
      OutputFacts.isFrontier, OutputFacts.isData]
  unfold DistinctMachine.apply DistinctMachine.action DistinctMachine.applyPrefix
  simp only [accepted, ok_bind, reduceCtorEq, decide_false, Bool.false_and, refuse, Bool.false_eq_true, if_false, pure_bind,
    reads, ne_eq, not_true_eq_false, Bool.or_self, Bool.and_false, Bool.not_false, DistinctMachine.outputFits, data, rows,
    decide_true, Bool.not_true, protocol]
  cases isNext : next with
  | none => rfl
  | some after =>
      obtain ⟨inside, advances⟩ := follows after isNext
      simp only [inside, advances, ok_bind, Bool.not_true, Bool.false_eq_true, if_false]
      rfl

omit stream sequence in
theorem machine_forwards (stream : 0 < input.streamId) (sequence : 0 < input.chunkSeq) (start : input.rowOrdinal = 0)
    {number : Nat} (some : number ≠ 0) :
    DistinctMachine.apply ⟨input, .frontier⟩ (.frontierForwarded { output := .frontier number }) budget = .ok none := by
  have accepted := validate_input_ok input stream sequence
  have protocol : PrimitiveFacts.validateProtocol { output := .frontier number } budget .frontier .finished = .ok () := by
    simp [PrimitiveFacts.validateProtocol, PrimitiveFacts.validate, usage_none, some, refuse, bind, Except.bind,
      OutputFacts.isFrontier, OutputFacts.isData]
  unfold DistinctMachine.apply DistinctMachine.action DistinctMachine.applyFrontier
  simp only [accepted, ok_bind, start, ne_eq, not_true_eq_false, decide_false, Bool.and_false, refuse, Bool.false_eq_true,
    if_false, pure_bind, protocol, OutputFacts.isFrontier, Bool.not_true, Bool.or_self]
  rfl

end Machine

def effectRows (effects : List (QueuedEffect Out Bytes)) : List (EffectRow Out) :=
  effects.map fun effect => ⟨effect.weight, effect.outputRow⟩

def effectBytes (effects : List (QueuedEffect Out Bytes)) : Nat := (effects.map QueuedEffect.rowBytes).sum

section Context

variable (key : ConsumerKey) (tables : DistinctTables Row Key Out Bytes) (budget : WorkBudget) (row : StreamConsumer)
  (state : DistinctState Key Out Bytes) (effects : List (QueuedEffect Out Bytes)) (lsn : Lsn)

-- The bound context with new state relations, and the effects that go out.
def paged (key : ConsumerKey) (tables : DistinctTables Row Key Out Bytes) (budget : WorkBudget) (row : StreamConsumer)
    (state : DistinctState Key Out Bytes) (effects : List (QueuedEffect Out Bytes)) (lsn : Lsn) :
    DistinctContext Row Key Out Bytes :=
  let context := { boundStart tables key budget row with tables := { tables with state } }
  if effects.length = 0 then context
  else context.dataRecorded effects.length (effectBytes effects) lsn (effectRows effects)

def pagedOutput (tables : DistinctTables Row Key Out Bytes) (effects : List (QueuedEffect Out Bytes)) : OutputFacts :=
  if effects.length = 0 then .none else .data tables.output.stream.nextChunkSeq

-- The output once the effects are published.
def writtenOutput (tables : DistinctTables Row Key Out Bytes) (effects : List (QueuedEffect Out Bytes)) (lsn : Lsn) :
    StreamHistory Out :=
  if effects.length = 0 then tables.output
  else appendedHistory tables.output .data effects.length (effectBytes effects) lsn (effectRows effects)

-- A paged context that knows where its input goes on.
structure Turned (key : ConsumerKey) (tables : DistinctTables Row Key Out Bytes) (budget : WorkBudget) (row : StreamConsumer)
    (state : DistinctState Key Out Bytes) (effects : List (QueuedEffect Out Bytes)) (lsn : Lsn) (input : StreamHistory Row)
    (context : DistinctContext Row Key Out Bytes) : Prop where
  sameTables : context.tables = { tables with state, input }
  sameBudget : context.budget = budget
  sameOutput : context.output = (paged key tables budget row state effects lsn).output
  bound : context.continuationPresence = some tables.continuation.isSome
  frontier : context.frontierOutput = none
  expected : context.expectedRevision = tables.revision

theorem paged_turned : Turned key tables budget row state effects lsn tables.input
    (paged key tables budget row state effects lsn) := by
  unfold paged
  split
  · exact ⟨rfl, rfl, by rw [paged, if_pos ‹_›], rfl, rfl, rfl⟩
  · exact ⟨rfl, rfl, by rw [paged, if_neg ‹_›], rfl, rfl, rfl⟩

theorem paged_frame : (paged key tables budget row state effects lsn).key = key ∧
    (paged key tables budget row state effects lsn).input = inputState tables.input row := by
  unfold paged
  split
  · exact ⟨rfl, rfl⟩
  · exact ⟨rfl, rfl⟩

variable (input : StreamHistory Row) (context : DistinctContext Row Key Out Bytes)
  (turned : Turned key tables budget row state effects lsn input context)

include turned

theorem turned_facts : context.outputFacts = pagedOutput tables effects := by
  unfold StepContext.outputFacts pagedOutput
  rw [turned.frontier, turned.sameOutput]
  by_cases none : effects.length = 0
  · rw [paged, if_pos none, if_pos none]
    rfl
  · rw [paged, if_neg none, if_neg none]
    rfl

theorem turned_published : context.publishedTables =
    { tables with state, input, output := writtenOutput tables effects lsn } := by
  unfold publishedTables writtenOutput
  rw [turned.sameOutput, turned.sameTables]
  by_cases none : effects.length = 0
  · rw [paged, if_pos none, if_pos none]
    rfl
  · rw [paged, if_neg none, if_neg none]
    rfl

-- The tables after a step.
def turnedTables (tables : DistinctTables Row Key Out Bytes) (state : DistinctState Key Out Bytes)
    (effects : List (QueuedEffect Out Bytes)) (lsn : Lsn) (input : StreamHistory Row) (next : Option DistinctContinuation) :
    DistinctTables Row Key Out Bytes where
  input := input
  output := writtenOutput tables effects lsn
  revision := tables.revision + 1
  hasContinuation := next.isSome
  continuation := next
  state := state

-- What a step may write to its output.
structure WritesFit (tables : DistinctTables Row Key Out Bytes) (effects : List (QueuedEffect Out Bytes)) (lsn : Lsn) :
    Prop where
  ready : OutputReady tables.output.stream
  data : DataFits tables.output.stream lsn
  resources : resourcesFit tables.output.stream.toStreamLimits .data effects.length (effectBytes effects) = true

variable {state}

theorem turned_pending (fits : effects.length ≠ 0 → WritesFit tables effects lsn) : PendingFits context := by
  intro pending isPending
  rw [turned.sameOutput] at isPending
  rw [turned.sameTables]
  by_cases none : effects.length = 0
  · rw [paged, if_pos none] at isPending
    cases isPending
  · rw [paged, if_neg none] at isPending
    obtain rfl := Option.some.inj isPending
    have written := fits none
    exact ⟨written.ready, rfl, written.data, written.resources⟩

-- The rest of a step stores the continuation and commits.
theorem turned_commits (stored : StoredContinuation)
    (saved : (if stored.persisted then some stored.value else none) = tables.continuation)
    (ordinary : stored.value.phase ≠ .frontier) (next : Option DistinctContinuation)
    (later : ∀ after, next = some after → after.phase ≠ .frontier) (phase : KernelPhase) (usage : WorkUsage) (stateRows : Nat)
    (supported : phase ≠ .frontier) (valid : usage.validate budget = .ok ()) (written : usage.outputRows = effects.length)
    (fits : effects.length ≠ 0 → WritesFit tables effects lsn) : ∃ stepped,
      (do
        let context ← replaceContinuation context stored next
        context.transitionFacts phase ⟨usage, stateRows, pagedOutput tables effects⟩) =
          .ok (stepped, stepped.stepReceipt phase usage next.isSome) ∧
      stepped.Committable phase usage next.isSome ∧
      stepped.committedTables next.isSome = turnedTables tables state effects lsn input next := by
  have bound : context.continuationPresence = some context.tables.continuation.isSome := by
    rw [turned.bound, turned.sameTables]
  have replaced : replaceContinuation context stored next = .ok (context.withContinuation next) := by
    have same : context.tables.continuation = if stored.persisted then some stored.value else none := by
      rw [turned.sameTables, saved]
    have changed := replace_continuation_ok context next "Distinct" bound
    rw [same] at changed
    have old : phaseCode stored.value = .ok () := by
      rw [phaseCode, refuse_ok]
      exact decide_eq_false ordinary
    have coded : ∀ after, next = some after → phaseCode after = .ok () := by
      intro after isNext
      rw [phaseCode, refuse_ok]
      exact decide_eq_false (later after isNext)
    unfold replaceContinuation
    rw [old]
    cases persisted : stored.persisted with
    | true =>
        rw [persisted] at changed
        cases next with
        | none => exact changed
        | some after =>
            simp only [coded after rfl, ok_bind, if_true]
            exact changed
    | false =>
        rw [persisted] at changed
        cases next with
        | none => exact changed
        | some after =>
            simp only [coded after rfl, ok_bind, Bool.false_eq_true, if_false]
            exact changed
  have numbered : ∀ sequence, pagedOutput tables effects = .data sequence → sequence ≠ 0 := by
    intro sequence same
    unfold pagedOutput at same
    split at same
    · cases same
    · rename_i some
      obtain rfl := OutputFacts.data.inj same
      exact Nat.ne_of_gt (fits some).ready.numbered
  have agrees : OutputAgrees phase usage (pagedOutput tables effects) := by
    unfold pagedOutput
    split
    · rename_i none
      exact written.trans none
    · rename_i some
      exact ⟨written ▸ some, supported⟩
  have isData : (pagedOutput tables effects).isFrontier = false := by
    unfold pagedOutput
    split
    · rfl
    · rfl
  have facts := turned_facts key tables budget row state effects lsn input context turned
  have pending := turned_pending key tables budget row effects lsn input context turned fits
  have published := turned_published key tables budget row state effects lsn input context turned
  obtain ⟨moved, committable⟩ := process_commits (context.withContinuation next) phase
    ⟨usage, stateRows, pagedOutput tables effects⟩ next.isSome rfl (turned.sameBudget ▸ valid)
    (fun isSome => by simp [withContinuation, isSome]) facts agrees isData numbered pending
    (by
      change context.tables.revision = context.expectedRevision
      rw [turned.sameTables, turned.expected])
  refine ⟨_, ?_, committable, ?_⟩
  · rw [replaced]
    exact moved
  · have same : ((context.withContinuation next).withStateRows stateRows).publishedTables =
        { context.publishedTables with continuation := next } := by
      unfold publishedTables withStateRows withContinuation
      simp only
      split
      · rfl
      · rfl
    have revision : context.tables.revision = tables.revision := by rw [turned.sameTables]
    unfold committedTables
    rw [same, published]
    rw [turnedTables, ← revision]
    rfl

end Context

end Shiba.Distinct
