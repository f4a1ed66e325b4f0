import Shiba.Planner.Validate

set_option autoImplicit false

namespace Shiba.Planner

theorem validate_each_ok {α : Type} (validate : α → Except Fault Unit) (items : List α)
    (done : validateEach validate items = .ok ()) : ∀ item ∈ items, validate item = .ok () := by
  induction items with
  | nil =>
      intro item member
      cases member
  | cons first rest ih =>
      obtain ⟨_, here, later⟩ := bind_ok_iff.mp done
      intro item member
      rcases List.mem_cons.mp member with rfl | tail
      · exact here
      · exact ih later item tail

def typedInputs (inputs : List InputSlot) : TypedBindings := inputs.map fun input => (input.binding, input.type)

theorem typed_get (bindings : TypedBindings) (binding : BindingId) :
    (bindings.get binding).isSome = true ↔ binding ∈ bindings.map (·.1) := by
  unfold TypedBindings.get
  rw [Option.isSome_map, List.find?_isSome]
  constructor
  · rintro ⟨entry, member, same⟩
    exact List.mem_map.mpr ⟨entry, member, of_decide_eq_true same⟩
  · intro member
    obtain ⟨entry, found, same⟩ := List.mem_map.mp member
    exact ⟨entry, found, decide_eq_true same⟩

section

variable (label : String) (first : Nat) (stages : List DataflowStage) (stageId : Nat) (stage : DataflowStage)

-- The ports and the distinctness of the inputs that were read so far carry the induction.
theorem declare_inputs_ok (inputCount : Nat) (inputs : List InputSlot) (bindings declared : TypedBindings)
    (distinct : (bindings.map (·.1)).Nodup) (done : declareInputs label inputCount inputs bindings = .ok declared) :
    declared = bindings ++ typedInputs inputs ∧ (declared.map (·.1)).Nodup ∧ ∀ input ∈ inputs, input.input < inputCount := by
  induction inputs generalizing bindings with
  | nil =>
      cases done
      exact ⟨(List.append_nil _).symm, distinct, fun _ member => nomatch member⟩
  | cons input rest ih =>
      rw [declareInputs, refuse_bind_ok] at done
      obtain ⟨port, done⟩ := done
      obtain ⟨_, _, done⟩ := bind_ok_iff.mp done
      obtain ⟨fresh, done⟩ := refuse_bind_ok.mp done
      have absent : input.binding ∉ bindings.map (·.1) := by
        intro member
        rw [(typed_get _ _).mpr member] at fresh
        cases fresh
      obtain ⟨same, nodup, ports⟩ := ih _ (by simpa using List.Nodup.concat absent distinct) done
      refine ⟨by rw [same, List.append_assoc]; rfl, nodup, ?_⟩
      intro other member
      rcases List.mem_cons.mp member with rfl | tail
      · simpa using port
      · exact ports other tail

theorem declare_outputs_ok (outputs : List OutputSlot) (slots : List SlotId) (distinct : slots.Nodup)
    (done : declareOutputs label outputs slots = .ok ()) : (slots ++ outputs.map (·.slot)).Nodup := by
  induction outputs generalizing slots with
  | nil => simpa using distinct
  | cons output rest ih =>
      rw [declareOutputs] at done
      obtain ⟨_, _, done⟩ := bind_ok_iff.mp done
      obtain ⟨fresh, done⟩ := refuse_bind_ok.mp done
      have later := ih (slots ++ [output.slot])
        (by simpa using List.Nodup.concat (of_decide_eq_false fresh) distinct) done
      rwa [List.append_assoc] at later

-- What acceptance says about one stage.
structure StageAccepted (stageId : Nat) (stage : DataflowStage) : Prop where
  arity : stage.inputs.length = stage.spec.kind.inputCount
  upstream : ∀ input ∈ stage.inputs, input.upstreamStageId < stageId
  ports : ∀ input ∈ stage.schema.inputs, input.input < stage.spec.kind.inputCount
  bindings : (stage.schema.inputs.map (·.binding)).Nodup
  outputs : (stage.schema.outputs.map (·.slot)).Nodup
  spec : validateOperatorSpec stage s!"stage {stageId}" (typedInputs stage.schema.inputs) = .ok ()

theorem typed_inputs_keys (inputs : List InputSlot) : (typedInputs inputs).map (·.1) = inputs.map (·.binding) := by
  simp [typedInputs]

theorem validate_stage_ok (arity : stage.inputs.length = stage.spec.kind.inputCount)
    (upstream : ∀ input ∈ stage.inputs, input.upstreamStageId < stageId)
    (done : validateStage stage s!"stage {stageId}" = .ok ()) : StageAccepted stageId stage := by
  obtain ⟨declared, inputs, done⟩ := bind_ok_iff.mp done
  obtain ⟨_, outputs, done⟩ := bind_ok_iff.mp done
  obtain ⟨_, done⟩ := refuse_bind_ok.mp done
  obtain ⟨same, distinct, ports⟩ := declare_inputs_ok _ _ _ [] _ List.nodup_nil inputs
  rw [List.nil_append] at same
  rw [same] at distinct done
  rw [typed_inputs_keys] at distinct
  exact {
    arity := arity
    upstream := upstream
    ports := ports
    bindings := distinct
    outputs := declare_outputs_ok _ _ [] List.nodup_nil outputs
    spec := done
  }

theorem validate_stages_ok (done : validateStages first stages = .ok ()) (index : Nat) (stage : DataflowStage)
    (found : stages[index]? = some stage) : StageAccepted (first + index) stage := by
  induction stages generalizing first index with
  | nil => cases found
  | cons head rest ih =>
      rw [validateStages, refuse_bind_ok] at done
      obtain ⟨arity, done⟩ := done
      obtain ⟨order, done⟩ := refuse_bind_ok.mp done
      obtain ⟨_, valid, done⟩ := bind_ok_iff.mp done
      obtain ⟨_, _, done⟩ := bind_ok_iff.mp done
      cases index with
      | zero =>
          cases found
          refine validate_stage_ok first _ (by simpa using arity) ?_ valid
          intro input member
          have upstream := List.any_eq_false.mp order input member
          simpa using upstream
      | succ index =>
          have later := ih (first + 1) done index found
          rwa [Nat.add_right_comm] at later

theorem validate_consumers_ok (first : Nat) (rest : List DataflowStage) (done : validateConsumers stages first rest = .ok ())
    (index : Nat) (stage : DataflowStage) (found : rest[index]? = some stage) :
    consumersOf stages (first + index) = [] ↔ stage.spec.kind = .sink := by
  induction rest generalizing first index with
  | nil => cases found
  | cons head tail ih =>
      rw [validateConsumers] at done
      by_cases sink : head.spec.kind = .sink
      · rw [if_pos sink, refuse_bind_ok] at done
        cases index with
        | zero =>
            cases found
            simpa [sink] using done.1
        | succ index =>
            have later := ih (first + 1) done.2 index found
            rwa [Nat.add_right_comm] at later
      · rw [if_neg sink, refuse_bind_ok] at done
        cases index with
        | zero =>
            cases found
            simpa [sink] using done.1
        | succ index =>
            have later := ih (first + 1) done.2 index found
            rwa [Nat.add_right_comm] at later

-- A port's slot bindings connect slots of one type.
def WellBound (stage : DataflowStage) (upstream : List OutputSlot) (port : Nat) (binding : SlotBinding) : Prop :=
  ∃ source target, slotType upstream binding.sourceSlot = some source ∧
    inputSlot stage.schema.inputs binding.targetBinding = some target ∧ target.input = port ∧ source = target.type

theorem bind_slots_ok (upstream : List OutputSlot) (port upstreamId : Nat) (slots : List SlotBinding)
    (bound after : List BindingId) (distinct : bound.Nodup)
    (done : bindSlots stageId stage upstream port upstreamId slots bound = .ok after) :
    after = bound ++ slots.map (·.targetBinding) ∧ after.Nodup ∧
      ∀ binding ∈ slots, WellBound stage upstream port binding := by
  induction slots generalizing bound with
  | nil =>
      cases done
      exact ⟨(List.append_nil _).symm, distinct, fun _ member => nomatch member⟩
  | cons binding rest ih =>
      rw [bindSlots] at done
      cases sourceFound : slotType upstream binding.sourceSlot with
      | none =>
          rw [sourceFound] at done
          cases done
      | some source =>
          cases targetFound : inputSlot stage.schema.inputs binding.targetBinding with
          | none =>
              rw [sourceFound, targetFound] at done
              cases done
          | some target =>
              rw [sourceFound, targetFound] at done
              obtain ⟨good, done⟩ := refuse_bind_ok.mp done
              simp only [Bool.or_eq_false_iff, decide_eq_false_iff_not, ne_eq, not_not] at good
              obtain ⟨⟨port', typed⟩, fresh⟩ := good
              obtain ⟨same, nodup, others⟩ := ih (bound ++ [binding.targetBinding])
                (by simpa using List.Nodup.concat fresh distinct) done
              refine ⟨by rw [same, List.append_assoc]; rfl, nodup, ?_⟩
              intro other member
              rcases List.mem_cons.mp member with rfl | tail
              · exact ⟨source, target, sourceFound, targetFound, port', typed⟩
              · exact others other tail

def targets (inputs : List DataflowInput) : List BindingId :=
  inputs.flatMap fun input => input.bindings.map (·.targetBinding)

theorem bind_ports_ok (first : Nat) (inputs : List DataflowInput) (bound after : List BindingId) (distinct : bound.Nodup)
    (done : bindPorts stages stageId stage first inputs bound = .ok after) :
    after = bound ++ targets inputs ∧ after.Nodup ∧
      ∀ (index : Nat) (input : DataflowInput), inputs[index]? = some input →
        ∀ binding ∈ input.bindings, WellBound stage (outputsOf stages input.upstreamStageId) (first + index) binding := by
  induction inputs generalizing first bound with
  | nil =>
      cases done
      exact ⟨(List.append_nil _).symm, distinct, fun _ _ found => nomatch found⟩
  | cons input rest ih =>
      obtain ⟨middle, here, later⟩ := bind_ok_iff.mp done
      obtain ⟨middleSame, middleNodup, hereBound⟩ := bind_slots_ok _ _ _ _ _ _ _ _ distinct here
      obtain ⟨same, nodup, restBound⟩ := ih (first + 1) middle middleNodup later
      refine ⟨by rw [same, middleSame, List.append_assoc]; rfl, nodup, ?_⟩
      intro index other found
      cases index with
      | zero =>
          cases found
          exact hereBound
      | succ index =>
          have tail := restBound index other found
          rwa [Nat.add_right_comm] at tail

end

-- Every declared input is a target once, and no target is anything else.
structure SlotsAccepted (stages : List DataflowStage) (stage : DataflowStage) : Prop where
  distinct : (targets stage.inputs).Nodup
  covered : ∀ input ∈ stage.schema.inputs, input.binding ∈ targets stage.inputs
  wellBound : ∀ (port : Nat) (input : DataflowInput), stage.inputs[port]? = some input →
    ∀ binding ∈ input.bindings, WellBound stage (outputsOf stages input.upstreamStageId) port binding

theorem validate_slots_ok (stages : List DataflowStage) (first : Nat) (rest : List DataflowStage)
    (done : validateSlotBindings stages first rest = .ok ()) : ∀ stage ∈ rest, SlotsAccepted stages stage := by
  induction rest generalizing first with
  | nil =>
      intro stage member
      cases member
  | cons head tail ih =>
      obtain ⟨bound, here, done⟩ := bind_ok_iff.mp done
      obtain ⟨covered, later⟩ := refuse_bind_ok.mp done
      obtain ⟨same, nodup, wellBound⟩ := bind_ports_ok _ _ _ _ _ _ _ List.nodup_nil here
      rw [List.nil_append] at same
      rw [same] at nodup covered
      intro stage member
      rcases List.mem_cons.mp member with rfl | inTail
      · refine ⟨nodup, ?_, ?_⟩
        · intro input inside
          simpa using List.any_eq_false.mp covered input inside
        · intro port input found
          have bindings := wellBound port input found
          rwa [Nat.zero_add] at bindings
      · exact ih (first + 1) later stage inTail

-- All that the passes of `DataflowPlan::validate` establish.
structure Accepted (plan : DataflowPlan) : Prop where
  stages : ∀ stageId stage, plan.stages[stageId]? = some stage → StageAccepted stageId stage
  oneSink : plan.stages.countP DataflowStage.isSink = 1
  consumed : ∀ stageId stage, plan.stages[stageId]? = some stage →
    (consumersOf plan.stages stageId = [] ↔ stage.spec.kind = .sink)
  slots : ∀ stage ∈ plan.stages, SlotsAccepted plan.stages stage

theorem validate_accepted (plan : DataflowPlan) (valid : plan.validate = .ok ()) : Accepted plan := by
  have valid := past_check (past_check valid)
  obtain ⟨_, stages, valid⟩ := bind_ok_iff.mp valid
  obtain ⟨_, valid⟩ := refuse_bind_ok.mp valid
  obtain ⟨sinks, valid⟩ := refuse_bind_ok.mp valid
  obtain ⟨_, consumers, slots⟩ := bind_ok_iff.mp valid
  refine ⟨?_, by simpa using sinks, ?_, validate_slots_ok _ _ _ slots⟩
  · intro stageId stage found
    have accepted := validate_stages_ok 0 plan.stages stages stageId stage found
    rwa [Nat.zero_add] at accepted
  · intro stageId stage found
    have consumed := validate_consumers_ok plan.stages 0 plan.stages consumers stageId stage found
    rwa [Nat.zero_add] at consumed

end Shiba.Planner
