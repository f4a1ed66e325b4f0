import Shiba.Planner.Accepted

set_option autoImplicit false

namespace Shiba.Planner

inductive InputContract where
  | source
  | operator
deriving DecidableEq, Repr

inductive OutputContract where
  | effectStream
  | sink
deriving DecidableEq, Repr

structure OperatorDescriptor where
  inputs : List InputContract
  output : OutputContract
deriving DecidableEq, Repr

-- The contract of the kernel the dispatcher picks for a stage.
def descriptor : OperatorKind → OperatorDescriptor
  | .scan => { inputs := [.source], output := .effectStream }
  | .join => { inputs := [.operator, .operator], output := .effectStream }
  | .sink => { inputs := [.operator], output := .sink }
  | .filter | .project | .distinct | .aggregate | .window | .topN => { inputs := [.operator], output := .effectStream }

structure Consumer where
  streamId : Nat
  stageId : Nat
  inputPort : Nat
deriving DecidableEq, Repr

-- The streams of a registration: those of its sources, and of its stages in order.
structure Registration where
  sourceStreams : List (Oid × Nat)
  stageStreams : List (Option Nat)

def Registration.sourceStream (registration : Registration) (source : Oid) : Option Nat :=
  (registration.sourceStreams.find? fun entry => decide (entry.1 = source)).map (·.2)

def sourceOids (stages : List DataflowStage) : List Oid :=
  stages.filterMap fun stage =>
    match stage.spec with
    | .scan spec => some spec.sourceOid
    | _ => none

-- A stream of the generation that is there is used again; the identity column
-- gives a new one the next number.
def provisionSources : List (Oid × Nat) → Nat → List Oid → List (Oid × Nat) × Nat
  | existing, nextStreamId, [] => (existing, nextStreamId)
  | existing, nextStreamId, source :: rest =>
      if existing.any fun entry => decide (entry.1 = source) then provisionSources existing nextStreamId rest
      else provisionSources (existing ++ [(source, nextStreamId)]) (nextStreamId + 1) rest

def provisionOutputStreams : Nat → List DataflowStage → List (Option Nat)
  | _, [] => []
  | nextStreamId, stage :: rest =>
      if stage.spec.kind = .sink then none :: provisionOutputStreams nextStreamId rest
      else some nextStreamId :: provisionOutputStreams (nextStreamId + 1) rest

def attachPorts (registration : Registration) (stageId : Nat) : Nat → List DataflowInput → Except Fault (List Consumer)
  | _, [] => .ok []
  | port, input :: rest => do
      refuse (decide (stageId ≤ input.upstreamStageId)) s!"stage {stageId} input {port} is not upstream"
      match (registration.stageStreams[input.upstreamStageId]?).join with
      | none => .error (.failed s!"stage {stageId} input {port} has no producer stream")
      | some streamId => do
          let consumers ← attachPorts registration stageId (port + 1) rest
          return { streamId := streamId, stageId := stageId, inputPort := port } :: consumers

def attachStage (registration : Registration) (stageId : Nat) (stage : DataflowStage) : Except Fault (List Consumer) :=
  match stage.spec with
  | .scan spec =>
      match registration.sourceStream spec.sourceOid with
      | none => .error (.failed "Scan source stream was not provisioned")
      | some streamId => .ok [{ streamId := streamId, stageId := stageId, inputPort := 0 }]
  | _ => attachPorts registration stageId 0 stage.inputs

def attachInputs (registration : Registration) : Nat → List DataflowStage → Except Fault (List Consumer)
  | _, [] => .ok []
  | stageId, stage :: rest => do
      let here ← attachStage registration stageId stage
      let later ← attachInputs registration (stageId + 1) rest
      return here ++ later

-- The streams before the registration: the sources of the generation that have one, and the next number.
structure StreamCatalog where
  sources : List (Oid × Nat)
  nextStreamId : Nat
  numbered : ∀ entry ∈ sources, entry.2 < nextStreamId

def provision (streams : StreamCatalog) (plan : DataflowPlan) : Registration :=
  let (sourceStreams, nextStreamId) := provisionSources streams.sources streams.nextStreamId (sourceOids plan.stages)
  { sourceStreams := sourceStreams, stageStreams := provisionOutputStreams nextStreamId plan.stages }

-- The rows the step's UNION over its consumers and its output locks.
def lockedStreams (registration : Registration) (consumers : List Consumer) (stageId : Nat) : List Nat :=
  ((consumers.filter fun consumer => decide (consumer.stageId = stageId)).map (·.streamId) ++
    (registration.stageStreams[stageId]?).join.toList).dedup

def expectedStreams (kind : OperatorKind) : Nat :=
  (descriptor kind).inputs.length + if (descriptor kind).output = .effectStream then 1 else 0

def lockStreams (registration : Registration) (consumers : List Consumer) (stageId : Nat) (kind : OperatorKind) :
    Except Fault Unit :=
  let locked := (lockedStreams registration consumers stageId).length
  refuse (decide (locked ≠ expectedStreams kind))
    s!"operator stage {stageId} locked {locked} streams, expected {expectedStreams kind}"

theorem provision_sources_ok (existing : List (Oid × Nat)) (next : Nat) (sources : List Oid)
    (numbered : ∀ entry ∈ existing, entry.2 < next) :
    (∀ entry ∈ (provisionSources existing next sources).1, entry.2 < (provisionSources existing next sources).2) ∧
      (∀ entry ∈ existing, entry ∈ (provisionSources existing next sources).1) ∧
      ∀ source ∈ sources, ∃ entry ∈ (provisionSources existing next sources).1, entry.1 = source := by
  induction sources generalizing existing next with
  | nil => exact ⟨numbered, fun _ member => member, fun _ member => nomatch member⟩
  | cons source rest ih =>
      rw [provisionSources]
      by_cases known : existing.any fun entry => decide (entry.1 = source)
      · rw [if_pos known]
        obtain ⟨below, kept, found⟩ := ih existing next numbered
        refine ⟨below, kept, ?_⟩
        intro other member
        rcases List.mem_cons.mp member with rfl | tail
        · obtain ⟨entry, inside, same⟩ := List.any_eq_true.mp known
          exact ⟨entry, kept entry inside, of_decide_eq_true same⟩
        · exact found other tail
      · rw [if_neg known]
        obtain ⟨below, kept, found⟩ := ih (existing ++ [(source, next)]) (next + 1) (by
          intro entry member
          rcases List.mem_append.mp member with old | new
          · exact Nat.lt_succ_of_lt (numbered entry old)
          · rw [List.mem_singleton.mp new]
            exact Nat.lt_succ_self next)
        refine ⟨below, fun entry member => kept entry (List.mem_append_left _ member), ?_⟩
        intro other member
        rcases List.mem_cons.mp member with rfl | tail
        · exact ⟨(other, next), kept _ (List.mem_append_right _ (List.mem_singleton.mpr rfl)), rfl⟩
        · exact found other tail

-- The output streams of the stages before `stageId`.
def producersBefore (stages : List DataflowStage) (stageId : Nat) : Nat :=
  (stages.take stageId).countP fun stage => !stage.isSink

def ownStream (first : Nat) (stages : List DataflowStage) (stageId : Nat) (stage : DataflowStage) : Option Nat :=
  if stage.spec.kind = .sink then none else some (first + producersBefore stages stageId)

section

variable (registration : Registration) (first : Nat) (stages : List DataflowStage)

theorem own_stream_succ (head : DataflowStage) (rest : List DataflowStage) (index : Nat) :
    ownStream first (head :: rest) (index + 1) =
      ownStream (if head.spec.kind = .sink then first else first + 1) rest index := by
  funext stage
  have count : producersBefore (head :: rest) (index + 1) =
      producersBefore rest index + if head.spec.kind = .sink then 0 else 1 := by
    by_cases sink : head.spec.kind = .sink <;> simp [producersBefore, DataflowStage.isSink, sink]
  unfold ownStream
  rw [count]
  by_cases sink : head.spec.kind = .sink
  · rw [if_pos sink, if_pos sink, Nat.add_zero]
  · rw [if_neg sink, if_neg sink, Nat.add_comm _ 1, Nat.add_assoc]

theorem provision_output_streams_get (stageId : Nat) :
    (provisionOutputStreams first stages)[stageId]? = (stages[stageId]?).map (ownStream first stages stageId) := by
  induction stages generalizing first stageId with
  | nil => simp [provisionOutputStreams]
  | cons head rest ih =>
      rw [provisionOutputStreams]
      cases stageId with
      | zero =>
          by_cases sink : head.spec.kind = .sink <;> simp [sink, ownStream, producersBefore]
      | succ index =>
          rw [own_stream_succ, List.getElem?_cons_succ]
          by_cases sink : head.spec.kind = .sink
          · rw [if_pos sink, if_pos sink, List.getElem?_cons_succ, ih]
          · rw [if_neg sink, if_neg sink, List.getElem?_cons_succ, ih]

theorem producers_before_lt {stages : List DataflowStage} {upstream downstream : Nat} {stage : DataflowStage}
    (order : upstream < downstream) (found : stages[upstream]? = some stage) (produces : stage.spec.kind ≠ .sink) :
    producersBefore stages upstream < producersBefore stages downstream := by
  have parts : stages.take upstream ++ (stages.take downstream).drop upstream = stages.take downstream := by
    have split := List.take_append_drop upstream (stages.take downstream)
    rwa [List.take_take, Nat.min_eq_left (Nat.le_of_lt order)] at split
  have later : 0 < ((stages.take downstream).drop upstream).countP fun stage => !stage.isSink := by
    apply List.countP_pos_iff.mpr
    refine ⟨stage, List.mem_of_getElem? (i := 0) ?_, by simp [DataflowStage.isSink, produces]⟩
    rw [List.getElem?_drop, Nat.add_zero, List.getElem?_take_of_lt order, found]
  unfold producersBefore
  rw [← parts, List.countP_append]
  exact Nat.lt_add_of_pos_right later

-- A port's stream is its upstream stage's output.
def upstreamStream (first : Nat) (stages : List DataflowStage) (input : DataflowInput) : Nat :=
  first + producersBefore stages input.upstreamStageId

theorem attach_ports_ok {registration : Registration} {first : Nat} {stages : List DataflowStage} {stageId : Nat} (port : Nat)
    (inputs : List DataflowInput) (streams : registration.stageStreams = provisionOutputStreams first stages)
    (upstream : ∀ input ∈ inputs, input.upstreamStageId < stageId ∧
      ∃ stage, stages[input.upstreamStageId]? = some stage ∧ stage.spec.kind ≠ .sink) :
    ∃ consumers, attachPorts registration stageId port inputs = .ok consumers ∧
      (∀ consumer ∈ consumers, consumer.stageId = stageId) ∧
      consumers.map (·.streamId) = inputs.map (upstreamStream first stages) := by
  induction inputs generalizing port with
  | nil => exact ⟨[], rfl, by simp, rfl⟩
  | cons input rest ih =>
      obtain ⟨before, stage, found, produces⟩ := upstream input List.mem_cons_self
      obtain ⟨consumers, done, mine, same⟩ := ih (port + 1) fun other member => upstream other (List.mem_cons_of_mem _ member)
      have stream : (registration.stageStreams[input.upstreamStageId]?).join = some (upstreamStream first stages input) := by
        rw [streams, provision_output_streams_get, found]
        simp [ownStream, produces, upstreamStream]
      refine ⟨{ streamId := upstreamStream first stages input, stageId := stageId, inputPort := port } :: consumers, ?_, ?_, ?_⟩
      · rw [attachPorts, refuse_bind_ok]
        refine ⟨by simpa using before, ?_⟩
        rw [stream]
        exact bind_ok_iff.mpr ⟨consumers, done, rfl⟩
      · intro consumer member
        rcases List.mem_cons.mp member with rfl | tail
        · rfl
        · exact mine consumer tail
      · rw [List.map_cons, List.map_cons, same]

-- The streams a stage reads, its own stream aside.
structure Attached (first : Nat) (stages : List DataflowStage) (stageId : Nat) (stage : DataflowStage)
    (consumers : List Consumer) : Prop where
  mine : ∀ consumer ∈ consumers, consumer.stageId = stageId
  source : stage.spec.kind = .scan → ∃ stream < first, consumers.map (·.streamId) = [stream]
  upstream : stage.spec.kind ≠ .scan → consumers.map (·.streamId) = stage.inputs.map (upstreamStream first stages)

theorem attach_stage_ok (stageId : Nat) (stage : DataflowStage)
    (streams : registration.stageStreams = provisionOutputStreams first stages)
    (sources : ∀ source ∈ sourceOids [stage], ∃ stream < first, registration.sourceStream source = some stream)
    (upstream : ∀ input ∈ stage.inputs, input.upstreamStageId < stageId ∧
      ∃ producer, stages[input.upstreamStageId]? = some producer ∧ producer.spec.kind ≠ .sink) :
    ∃ consumers, attachStage registration stageId stage = .ok consumers ∧
      Attached first stages stageId stage consumers := by
  by_cases scan : stage.spec.kind = .scan
  · cases spec : stage.spec with
    | scan scanSpec =>
        obtain ⟨stream, below, found⟩ := sources scanSpec.sourceOid (by simp [sourceOids, spec])
        refine ⟨[{ streamId := stream, stageId := stageId, inputPort := 0 }], ?_, ?_, ?_, ?_⟩
        · simp only [attachStage, spec, found]
        · simp
        · intro kind
          exact ⟨stream, below, rfl⟩
        · intro other
          exact absurd scan other
    | _ => simp [OperatorSpec.kind, spec] at scan
  · obtain ⟨consumers, done, mine, same⟩ := attach_ports_ok 0 stage.inputs streams upstream
    refine ⟨consumers, ?_, mine, fun kind => absurd kind scan, fun _ => same⟩
    unfold attachStage
    cases spec : stage.spec with
    | scan scanSpec => simp [OperatorSpec.kind, spec] at scan
    | _ => exact done

theorem attach_inputs_ok (Good : Nat → DataflowStage → List Consumer → Prop)
    (mine : ∀ stageId stage consumers, Good stageId stage consumers → ∀ consumer ∈ consumers, consumer.stageId = stageId)
    (each : ∀ index stage, stages[index]? = some stage →
      ∃ consumers, attachStage registration (first + index) stage = .ok consumers ∧ Good (first + index) stage consumers) :
    ∃ consumers, attachInputs registration first stages = .ok consumers ∧
      (∀ consumer ∈ consumers, first ≤ consumer.stageId) ∧
      ∀ index stage, stages[index]? = some stage →
        Good (first + index) stage (consumers.filter fun consumer => decide (consumer.stageId = first + index)) := by
  induction stages generalizing first with
  | nil => exact ⟨[], rfl, by simp, fun _ _ found => nomatch found⟩
  | cons head rest ih =>
      obtain ⟨here, attached, good⟩ := each 0 head rfl
      obtain ⟨later, done, above, others⟩ := ih (first + 1) (by
        intro index stage found
        rw [Nat.add_right_comm]
        exact each (index + 1) stage found)
      have hereMine := mine _ _ _ good
      refine ⟨here ++ later, ?_, ?_, ?_⟩
      · rw [attachInputs]
        exact bind_ok_iff.mpr ⟨here, attached, bind_ok_iff.mpr ⟨later, done, rfl⟩⟩
      · intro consumer member
        rcases List.mem_append.mp member with left | right
        · exact Nat.le_of_eq (hereMine consumer left).symm
        · exact Nat.le_of_succ_le (above consumer right)
      · intro index stage found
        rw [List.filter_append]
        cases index with
        | zero =>
            cases found
            have noLater : later.filter (fun consumer => decide (consumer.stageId = first + 0)) = [] := by
              apply List.filter_eq_nil_iff.mpr
              intro consumer member same
              have := above consumer member
              have := of_decide_eq_true same
              omega
            have allHere : here.filter (fun consumer => decide (consumer.stageId = first + 0)) = here := by
              apply List.filter_eq_self.mpr
              intro consumer member
              exact decide_eq_true (hereMine consumer member)
            rw [noLater, allHere, List.append_nil]
            exact good
        | succ index =>
            have noHere : here.filter (fun consumer => decide (consumer.stageId = first + (index + 1))) = [] := by
              apply List.filter_eq_nil_iff.mpr
              intro consumer member same
              have := hereMine consumer member
              have := of_decide_eq_true same
              omega
            rw [noHere, List.nil_append]
            have tail := others index stage found
            rwa [Nat.add_assoc, Nat.add_comm 1 index] at tail

theorem dedup_length_iff (streams : List Nat) : streams.dedup.length = streams.length ↔ streams.Nodup := by
  constructor
  · intro same
    exact List.dedup_eq_self.mp ((List.dedup_sublist streams).eq_of_length same)
  · intro distinct
    rw [List.dedup_eq_self.mpr distinct]

def SeparateInputs (stage : DataflowStage) : Prop := (stage.inputs.map (·.upstreamStageId)).Nodup

theorem upstream_streams_nodup (inputs : List DataflowInput)
    (producers : ∀ input ∈ inputs, ∃ producer, stages[input.upstreamStageId]? = some producer ∧
      producer.spec.kind ≠ .sink) :
    (inputs.map (upstreamStream first stages)).Nodup ↔ (inputs.map (·.upstreamStageId)).Nodup := by
  have injective (a b : DataflowInput) (left : a ∈ inputs) (right : b ∈ inputs)
      (same : upstreamStream first stages a = upstreamStream first stages b) : a.upstreamStageId = b.upstreamStageId := by
    have count : producersBefore stages a.upstreamStageId = producersBefore stages b.upstreamStageId :=
      Nat.add_left_cancel same
    obtain ⟨stageA, foundA, producesA⟩ := producers a left
    obtain ⟨stageB, foundB, producesB⟩ := producers b right
    rcases Nat.lt_trichotomy a.upstreamStageId b.upstreamStageId with less | equal | more
    · exact absurd count (Nat.ne_of_lt (producers_before_lt less foundA producesA))
    · exact equal
    · exact absurd count.symm (Nat.ne_of_lt (producers_before_lt more foundB producesB))
  have through : inputs.map (upstreamStream first stages) =
      (inputs.map (·.upstreamStageId)).map fun stageId => first + producersBefore stages stageId := by
    rw [List.map_map]
    rfl
  rw [through]
  constructor
  · exact List.Nodup.of_map _
  · intro distinct
    apply List.Nodup.map_on ?_ distinct
    intro x xIn y yIn same
    obtain ⟨a, left, rfl⟩ := List.mem_map.mp xIn
    obtain ⟨b, right, rfl⟩ := List.mem_map.mp yIn
    exact injective a b left right same

end

-- The step locks as many streams as it expects exactly when no two of the
-- stage's ports read one stream.
theorem locked_streams_iff {first : Nat} {stages : List DataflowStage} {stageId : Nat} {stage : DataflowStage}
    {consumers : List Consumer} (accepted : StageAccepted stageId stage)
    (attached : Attached first stages stageId stage consumers)
    (producers : ∀ input ∈ stage.inputs, ∃ producer, stages[input.upstreamStageId]? = some producer ∧
      producer.spec.kind ≠ .sink) :
    ((consumers.map (·.streamId) ++ (ownStream first stages stageId stage).toList).dedup.length =
      expectedStreams stage.spec.kind) ↔ SeparateInputs stage := by
  have arity := accepted.arity
  by_cases scan : stage.spec.kind = .scan
  · obtain ⟨stream, below, same⟩ := attached.source scan
    have none_ : stage.inputs = [] := by
      rw [scan] at arity
      exact List.eq_nil_of_length_eq_zero arity
    have different : stream ≠ first + producersBefore stages stageId := by omega
    simp [same, ownStream, scan, expectedStreams, descriptor, SeparateInputs, none_, different]
  · rw [attached.upstream scan]
    have fresh : ∀ input ∈ stage.inputs, upstreamStream first stages input < first + producersBefore stages stageId := by
      intro input member
      obtain ⟨producer, found, produces⟩ := producers input member
      have order := accepted.upstream input member
      exact Nat.add_lt_add_left (producers_before_lt order found produces) first
    have size : expectedStreams stage.spec.kind =
        (stage.inputs.map (upstreamStream first stages) ++ (ownStream first stages stageId stage).toList).length := by
      rw [List.length_append, List.length_map, arity]
      cases kind : stage.spec.kind <;> simp_all [expectedStreams, descriptor, ownStream, OperatorKind.inputCount]
    rw [size, dedup_length_iff, List.nodup_append, upstream_streams_nodup first stages stage.inputs producers]
    constructor
    · intro distinct
      exact distinct.1
    · intro distinct
      refine ⟨distinct, ?_, ?_⟩
      · unfold ownStream
        split <;> simp
      · intro stream inside own member same
        obtain ⟨input, port, rfl⟩ := List.mem_map.mp inside
        have below := fresh input port
        unfold ownStream at member
        split at member
        · cases member
        · rw [Option.toList_some, List.mem_singleton] at member
          omega

end Shiba.Planner
