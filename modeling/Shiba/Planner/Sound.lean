import Shiba.Planner.Compile
import Shiba.Planner.Streams

set_option autoImplicit false

namespace Shiba.Planner

-- Whatever streams the catalog holds, a registration attaches every stage, and
-- the step of every stage locks the streams it expects.
def LocksExpected (plan : DataflowPlan) : Prop :=
  ∀ streams : StreamCatalog, ∃ consumers, attachInputs (provision streams plan) 0 plan.stages = .ok consumers ∧
    ∀ stageId stage, plan.stages[stageId]? = some stage →
      lockStreams (provision streams plan) consumers stageId stage.spec.kind = .ok ()

structure Sound (plan : DataflowPlan) : Prop where
  wired : Wired plan
  bound : ∀ stage ∈ plan.stages, BoundOnce plan stage
  compiles : ∀ stage ∈ plan.stages, Compiles plan stage
  locks : LocksExpected plan

-- No stage reads one upstream stage on two ports.
def SeparateProducers (plan : DataflowPlan) : Prop := ∀ stage ∈ plan.stages, SeparateInputs stage

theorem accepted_producers (plan : DataflowPlan) (accepted : Accepted plan) (stageId : Nat) (stage : DataflowStage)
    (found : plan.stages[stageId]? = some stage) : ∀ input ∈ stage.inputs, input.upstreamStageId < stageId ∧
      ∃ producer, plan.stages[input.upstreamStageId]? = some producer ∧ producer.spec.kind ≠ .sink := by
  intro input member
  have before := (accepted.stages stageId stage found).upstream input member
  have within := (List.getElem?_eq_some_iff.mp found).1
  obtain ⟨producer, here⟩ : ∃ producer, plan.stages[input.upstreamStageId]? = some producer :=
    ⟨_, List.getElem?_eq_getElem (Nat.lt_trans before within)⟩
  refine ⟨before, producer, here, ?_⟩
  intro sink
  have consumers := (accepted.consumed _ producer here).mpr sink
  have reads : stage ∈ consumersOf plan.stages input.upstreamStageId :=
    List.mem_filter.mpr ⟨List.mem_of_getElem? found, List.any_eq_true.mpr ⟨input, member, decide_eq_true rfl⟩⟩
  rw [consumers] at reads
  cases reads

theorem source_stream_some (registration : Registration) (first : Nat) (source : Oid)
    (below : ∀ entry ∈ registration.sourceStreams, entry.2 < first)
    (present : ∃ entry ∈ registration.sourceStreams, entry.1 = source) :
    ∃ stream < first, registration.sourceStream source = some stream := by
  obtain ⟨entry, member, same⟩ := present
  have found : (registration.sourceStreams.find? fun entry => decide (entry.1 = source)).isSome = true :=
    List.find?_isSome.mpr ⟨entry, member, decide_eq_true same⟩
  obtain ⟨first', here⟩ := Option.isSome_iff_exists.mp found
  exact ⟨first'.2, below first' (List.mem_of_find?_eq_some here), by rw [Registration.sourceStream, here]; rfl⟩

theorem source_oids_mem (stages : List DataflowStage) (stage : DataflowStage) (member : stage ∈ stages) :
    ∀ source ∈ sourceOids [stage], source ∈ sourceOids stages := by
  intro source inside
  obtain ⟨other, only, found⟩ := List.mem_filterMap.mp inside
  rw [List.mem_singleton.mp only] at found
  exact List.mem_filterMap.mpr ⟨stage, member, found⟩

-- The streams of one registration, and how many of them each step locks.
theorem accepted_attached (plan : DataflowPlan) (accepted : Accepted plan) (streams : StreamCatalog) :
    ∃ consumers, attachInputs (provision streams plan) 0 plan.stages = .ok consumers ∧
      ∀ stageId stage, plan.stages[stageId]? = some stage →
        (lockStreams (provision streams plan) consumers stageId stage.spec.kind = .ok () ↔ SeparateInputs stage) := by
  let sources := provisionSources streams.sources streams.nextStreamId (sourceOids plan.stages)
  obtain ⟨below, _, present⟩ := provision_sources_ok streams.sources streams.nextStreamId (sourceOids plan.stages)
    streams.numbered
  have shape : provision streams plan =
      { sourceStreams := sources.1, stageStreams := provisionOutputStreams sources.2 plan.stages } := rfl
  obtain ⟨consumers, done, _, each⟩ := attach_inputs_ok (provision streams plan) 0 plan.stages
    (fun stageId stage consumers => Attached sources.2 plan.stages stageId stage consumers)
    (fun stageId stage consumers attached => attached.mine) (by
      intro index stage found
      rw [Nat.zero_add]
      apply attach_stage_ok (provision streams plan) sources.2 plan.stages index stage rfl
      · intro source inside
        have scanned := source_oids_mem _ stage (List.mem_of_getElem? found) source inside
        exact source_stream_some _ _ source below (present source scanned)
      · exact accepted_producers plan accepted index stage found)
  refine ⟨consumers, done, ?_⟩
  intro stageId stage found
  have attached := each stageId stage found
  rw [Nat.zero_add] at attached
  have producers := accepted_producers plan accepted stageId stage found
  have own : ((provision streams plan).stageStreams[stageId]?).join = ownStream sources.2 plan.stages stageId stage := by
    rw [shape, provision_output_streams_get, found]
    rfl
  unfold lockStreams lockedStreams
  rw [refuse_ok, decide_eq_false_iff_not, not_not, own]
  exact locked_streams_iff (accepted.stages stageId stage found) attached
    fun input member => (producers input member).2

theorem plan_validation_sound (plan : DataflowPlan) (valid : plan.validate = .ok ()) :
    Sound plan ↔ SeparateProducers plan := by
  have accepted := validate_accepted plan valid
  constructor
  · intro sound stage member
    obtain ⟨stageId, found⟩ := List.mem_iff_getElem?.mp member
    obtain ⟨consumers, done, each⟩ := accepted_attached plan accepted ⟨[], 1, by simp⟩
    obtain ⟨others, same, locks⟩ := sound.locks ⟨[], 1, by simp⟩
    rw [done] at same
    cases same
    exact (each stageId stage found).mp (locks stageId stage found)
  · intro separate
    refine ⟨accepted_wired plan accepted, ?_, ?_, ?_⟩
    · intro stage member
      obtain ⟨stageId, found⟩ := List.mem_iff_getElem?.mp member
      exact accepted_bound_once plan accepted stageId stage found
    · intro stage member
      obtain ⟨stageId, found⟩ := List.mem_iff_getElem?.mp member
      exact accepted_compiles plan accepted stageId stage found
    · intro streams
      obtain ⟨consumers, done, each⟩ := accepted_attached plan accepted streams
      refine ⟨consumers, done, ?_⟩
      intro stageId stage found
      exact (each stageId stage found).mpr (separate stage (List.mem_of_getElem? found))

section Plans

def capturedSettings : ExecutionSettings :=
  { timezone := "UTC", datestyle := "ISO, MDY", intervalstyle := "postgres", extraFloatDigits := 1, byteaOutput := "hex" }

def integer : SlotType := { typeOid := 23, typmod := -1, collationOid := 0, nullable := false }

def scanStage : DataflowStage :=
  { spec := .scan { sourceOid := 16384, columns := [{ output := 1, attnum := 1 }] }
    schema := { inputs := [], outputs := [{ slot := 1, type := integer }] }
    inputs := [] }

def filterStage : DataflowStage :=
  { spec := .filter { predicate := .nullTest (.input 1) true, outputs := [{ output := 2, expr := .input 1 }] }
    schema := { inputs := [{ binding := 1, input := 0, type := integer }], outputs := [{ slot := 2, type := integer }] }
    inputs := [{ upstreamStageId := 0, bindings := [{ sourceSlot := 1, targetBinding := 1 }] }] }

-- An inner equality Join whose ports read the stages `left` and `right`.
def joinStage (left right : Nat) (leftSlot rightSlot : SlotId) : DataflowStage :=
  { spec := .join
      { kind := .inner
        condition := .operator 96 [.input 2, .input 3] booleanType
        equiKeys := [{ leftBinding := 2, rightBinding := 3 }]
        outputs := [{ output := 3, expr := .input 2 }] }
    schema :=
      { inputs := [{ binding := 2, input := 0, type := integer }, { binding := 3, input := 1, type := integer }]
        outputs := [{ slot := 3, type := integer }] }
    inputs :=
      [{ upstreamStageId := left, bindings := [{ sourceSlot := leftSlot, targetBinding := 2 }] },
        { upstreamStageId := right, bindings := [{ sourceSlot := rightSlot, targetBinding := 3 }] }] }

def sinkStage (upstream : Nat) : DataflowStage :=
  { spec := .sink
    schema := { inputs := [{ binding := 4, input := 0, type := integer }], outputs := [] }
    inputs := [{ upstreamStageId := upstream, bindings := [{ sourceSlot := 3, targetBinding := 4 }] }] }

-- The Scan feeds the Join both directly and through the Filter.
def fanOutPlan : DataflowPlan :=
  { executionSettings := capturedSettings, stages := [scanStage, filterStage, joinStage 0 1 1 2, sinkStage 2] }

-- The Scan feeds both ports of the Join.
def selfJoinPlan : DataflowPlan :=
  { executionSettings := capturedSettings, stages := [scanStage, joinStage 0 0 1 1, sinkStage 1] }

theorem plan_validation_sound_fan_out : fanOutPlan.validate = .ok () ∧ Sound fanOutPlan := by
  have valid : fanOutPlan.validate = .ok () := rfl
  refine ⟨valid, (plan_validation_sound fanOutPlan valid).mpr ?_⟩
  unfold SeparateProducers SeparateInputs
  decide

theorem self_join_refused : selfJoinPlan.validate = .ok () ∧ ¬ Sound selfJoinPlan ∧
    ∃ consumers, attachInputs (provision ⟨[], 1, by simp⟩ selfJoinPlan) 0 selfJoinPlan.stages = .ok consumers ∧
      lockStreams (provision ⟨[], 1, by simp⟩ selfJoinPlan) consumers 1 .join =
        .error (.failed "operator stage 1 locked 2 streams, expected 3") := by
  have attached : attachInputs (provision ⟨[], 1, by simp⟩ selfJoinPlan) 0 selfJoinPlan.stages =
      .ok [⟨1, 0, 0⟩, ⟨2, 1, 0⟩, ⟨2, 1, 1⟩, ⟨3, 2, 0⟩] := rfl
  have locked : lockStreams (provision ⟨[], 1, by simp⟩ selfJoinPlan)
      [⟨1, 0, 0⟩, ⟨2, 1, 0⟩, ⟨2, 1, 1⟩, ⟨3, 2, 0⟩] 1 .join =
      .error (.failed "operator stage 1 locked 2 streams, expected 3") := by decide
  refine ⟨rfl, ?_, _, attached, locked⟩
  intro sound
  obtain ⟨consumers, done, locks⟩ := sound.locks ⟨[], 1, by simp⟩
  rw [attached] at done
  cases done
  have fine := locks 1 _ rfl
  rw [show (joinStage 0 0 1 1).spec.kind = .join from rfl, locked] at fine
  cases fine

end Plans

end Shiba.Planner
