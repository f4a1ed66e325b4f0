import Shiba.Planner.Wiring

set_option autoImplicit false

namespace Shiba.Planner

-- A payload that still has the types its stage declared, as the durable catalogs name it.
structure LiveInput (outputs : List OutputSlot) (input : BindingInput) : Prop where
  attributes : List.Forall₂ (fun column output => attributeMatchesSlot column output.type = true) input.attributes outputs
  named : ∀ column ∈ input.attributes, column.name.isEmpty = false
  aliased : input.inputAlias.isEmpty = false

def LiveInputs (plan : DataflowPlan) (stage : DataflowStage) (inputs : List BindingInput) : Prop :=
  List.Forall₂ (fun edge input => LiveInput (outputsOf plan.stages edge.upstreamStageId) input) stage.inputs inputs

theorem attribute_at_some (attributes : List AttributeRef) (outputs : List OutputSlot) (slot : SlotId) (type : SlotType)
    (live : List.Forall₂ (fun column output => attributeMatchesSlot column output.type = true) attributes outputs)
    (found : slotType outputs slot = some type) :
    ∃ column ∈ attributes, attributeAt attributes outputs slot = some column ∧ attributeMatchesSlot column type = true := by
  induction live with
  | nil => cases found
  | @cons column output attributes outputs here later ih =>
      by_cases same : output.slot = slot
      · refine ⟨column, List.mem_cons_self, by simp [attributeAt, same], ?_⟩
        have type' : output.type = type := by simpa [slotType, same] using found
        rwa [type'] at here
      · obtain ⟨other, member, at', fits⟩ := ih (by simpa [slotType, same] using found)
        exact ⟨other, List.mem_cons_of_mem _ member, by simpa [attributeAt, same] using at', fits⟩

theorem validate_attributes_ok (attributes : List AttributeRef) (outputs : List OutputSlot)
    (live : List.Forall₂ (fun column output => attributeMatchesSlot column output.type = true) attributes outputs) :
    validateAttributes attributes outputs = .ok () := by
  induction live with
  | nil => rfl
  | cons here later ih =>
      rw [validateAttributes, refuse_bind_ok]
      exact ⟨by simp [here], ih⟩

theorem validate_output_attributes_ok (outputs : List OutputSlot) (input : BindingInput) (live : LiveInput outputs input) :
    validateOutputAttributes input.attributes outputs = .ok () := by
  rw [validateOutputAttributes, refuse_bind_ok]
  exact ⟨by simp [live.attributes.length_eq], validate_attributes_ok _ _ live.attributes⟩

def Named (bindings : List SqlBinding) : Prop :=
  ∀ binding ∈ bindings, ¬ (binding.inputAlias.isEmpty ∨ binding.attributeName.isEmpty)

-- The bindings that were mapped so far are the targets read so far, in order.
structure Mapped (mapped : List BindingId) (bindings : List SqlBinding) : Prop where
  same : bindings.map (·.bindingId) = mapped
  named : Named bindings

theorem map_port_ok (stage : DataflowStage) (outputs : List OutputSlot) (input : BindingInput) (port : Nat)
    (live : LiveInput outputs input) (slots : List SlotBinding) (mapped : List BindingId) (bindings : List SqlBinding)
    (before : Mapped mapped bindings) (distinct : (mapped ++ slots.map (·.targetBinding)).Nodup)
    (wellBound : ∀ binding ∈ slots, WellBound stage outputs port binding) :
    ∃ after, mapPort stage.schema.inputs outputs input port slots mapped bindings =
      .ok (mapped ++ slots.map (·.targetBinding), after) ∧ Mapped (mapped ++ slots.map (·.targetBinding)) after := by
  induction slots generalizing mapped bindings with
  | nil => exact ⟨bindings, by rw [List.map_nil, List.append_nil]; rfl, by simpa using before⟩
  | cons mapping rest ih =>
      obtain ⟨source, target, sourceFound, targetFound, onPort, typed⟩ := wellBound mapping List.mem_cons_self
      obtain ⟨column, member, at', fits⟩ := attribute_at_some _ _ _ _ live.attributes sourceFound
      rw [typed] at fits
      have fresh : mapping.targetBinding ∉ mapped := by
        intro seen
        rw [List.nodup_append] at distinct
        exact distinct.2.2 _ seen _ List.mem_cons_self rfl
      have step : Mapped (mapped ++ [mapping.targetBinding]) (bindings ++
          [{ bindingId := mapping.targetBinding, inputAlias := input.inputAlias, attributeName := column.name }]) := by
        refine ⟨by rw [List.map_append, before.same]; rfl, ?_⟩
        intro binding inside
        rcases List.mem_append.mp inside with old | new
        · exact before.named binding old
        · rw [List.mem_singleton.mp new]
          simp [live.aliased, live.named column member]
      obtain ⟨after, done, good⟩ := ih _ _ step (by simpa using distinct)
        (fun other inside => wellBound other (List.mem_cons_of_mem _ inside))
      rw [List.append_assoc, List.singleton_append] at done good
      refine ⟨after, ?_, good⟩
      rw [mapPort, refuse_bind_ok]
      refine ⟨decide_eq_false fresh, ?_⟩
      rw [targetFound]
      refine refuse_bind_ok.mpr ⟨by simp [onPort], ?_⟩
      rw [at']
      exact refuse_bind_ok.mpr ⟨by simp [fits], done⟩

section

variable {plan : DataflowPlan} {stage : DataflowStage}

theorem map_ports_ok (first : Nat) {edges : List DataflowInput} {inputs : List BindingInput} (mapped : List BindingId)
    (bindings : List SqlBinding)
    (live : List.Forall₂ (fun edge input => LiveInput (outputsOf plan.stages edge.upstreamStageId) input) edges inputs)
    (before : Mapped mapped bindings) (distinct : (mapped ++ targets edges).Nodup)
    (upstream : ∀ edge ∈ edges, edge.upstreamStageId < plan.stages.length)
    (wellBound : ∀ (index : Nat) (edge : DataflowInput), edges[index]? = some edge → ∀ binding ∈ edge.bindings,
      WellBound stage (outputsOf plan.stages edge.upstreamStageId) (first + index) binding) :
    ∃ after, mapPorts plan stage.schema.inputs first edges inputs mapped bindings = .ok (mapped ++ targets edges, after) ∧
      Mapped (mapped ++ targets edges) after := by
  induction live generalizing first mapped bindings with
  | nil => exact ⟨bindings, by simp [mapPorts, targets], by simpa [targets] using before⟩
  | @cons edge input edges inputs here later ih =>
      have parts : targets (edge :: edges) = edge.bindings.map (·.targetBinding) ++ targets edges := rfl
      rw [parts, ← List.append_assoc] at distinct
      obtain ⟨producer, found⟩ : ∃ producer, plan.stages[edge.upstreamStageId]? = some producer :=
        ⟨_, List.getElem?_eq_getElem (upstream edge List.mem_cons_self)⟩
      have outputs : outputsOf plan.stages edge.upstreamStageId = producer.schema.outputs := by rw [outputsOf, found]
      have hereBound := wellBound 0 edge rfl
      rw [outputs] at here hereBound
      obtain ⟨middle, mappedHere, middleGood⟩ := map_port_ok stage _ input first here edge.bindings mapped bindings before
        (List.Nodup.of_append_left distinct) hereBound
      obtain ⟨after, done, good⟩ := ih (first + 1) _ _ middleGood distinct
        (fun other inside => upstream other (List.mem_cons_of_mem _ inside)) (by
          intro index other inside
          rw [Nat.add_assoc, Nat.add_comm 1 index]
          exact wellBound (index + 1) other inside)
      rw [parts, ← List.append_assoc]
      refine ⟨after, ?_, good⟩
      rw [mapPorts, found]
      apply bind_ok_iff.mpr
      refine ⟨(), validate_output_attributes_ok _ input here, ?_⟩
      rw [mappedHere]
      exact done

theorem compile_stage_bindings_ok (accepted : Accepted plan) {stageId : Nat} (found : plan.stages[stageId]? = some stage)
    {inputs : List BindingInput} (live : LiveInputs plan stage inputs) :
    ∃ bindings, compileStageBindings plan stage inputs = .ok bindings ∧
      (bindings.map (·.bindingId)).Perm (stage.schema.inputs.map (·.binding)) ∧ Named bindings := by
  have slots := accepted.slots stage (List.mem_of_getElem? found)
  have here := accepted.stages stageId stage found
  have perm := targets_perm plan stage slots here.bindings
  have within := (List.getElem?_eq_some_iff.mp found).1
  have nothing : Mapped [] [] := ⟨rfl, fun _ member => nomatch member⟩
  obtain ⟨bindings, done, good⟩ := map_ports_ok 0 [] [] live nothing slots.distinct
    (fun edge member => Nat.lt_trans (here.upstream edge member) within) (by
      intro port edge inside
      rw [Nat.zero_add]
      exact slots.wellBound port edge inside)
  rw [List.nil_append] at done good
  refine ⟨bindings, ?_, by rwa [good.same], good.named⟩
  unfold compileStageBindings
  refine refuse_bind_ok.mpr ⟨by simp [live.length_eq], ?_⟩
  refine refuse_bind_ok.mpr ⟨by simpa [hasDuplicates] using here.bindings, ?_⟩
  rw [done]
  refine refuse_bind_ok.mpr ⟨?_, rfl⟩
  have sameLength := perm.length_eq
  rw [List.length_map] at sameLength
  simp [sameLength]

end

theorem compiled_scoped (stageId : Nat) (stage : DataflowStage) (accepted : StageAccepted stageId stage) :
    ∀ expr ∈ stage.compiled,
      WellScoped (fun binding => ((typedInputs stage.schema.inputs).get binding).isSome = true) 0 expr := by
  obtain ⟨_, spec, expressions⟩ := bind_ok_iff.mp accepted.spec
  intro expr member
  rcases List.mem_append.mp member with direct | key
  · exact validated_scope _ _ expr (validate_each_ok _ _ expressions expr direct)
  · cases kind : stage.spec with
    | join join =>
        rw [kind] at key
        rw [validateSpec, kind] at spec
        obtain ⟨keys, _⟩ := refuse_bind_ok.mp spec
        obtain ⟨equi, inside, here⟩ := List.mem_flatMap.mp key
        have good := List.any_eq_false.mp keys equi inside
        simp only [equiKeyInvalid, Bool.or_eq_true, not_or] at good
        obtain ⟨⟨⟨⟨left, right⟩, _⟩, _⟩, _⟩ := good
        rcases List.mem_pair.mp here with rfl | rfl
        · simpa [WellScoped] using Option.isSome_iff_ne_none.mpr (by simpa using left)
        · simpa [WellScoped] using Option.isSome_iff_ne_none.mpr (by simpa using right)
    | scan _ => rw [kind] at key; cases key
    | filter _ => rw [kind] at key; cases key
    | project _ => rw [kind] at key; cases key
    | distinct _ => rw [kind] at key; cases key
    | aggregate _ => rw [kind] at key; cases key
    | window _ => rw [kind] at key; cases key
    | topN _ => rw [kind] at key; cases key
    | sink => rw [kind] at key; cases key

-- Live payloads give one SQL binding for each declared input, and with them an
-- expression of the stage fails to compile only where the catalogs refuse it.
def Compiles (plan : DataflowPlan) (stage : DataflowStage) : Prop :=
  ∀ inputs, LiveInputs plan stage inputs → ∃ bindings, compileStageBindings plan stage inputs = .ok bindings ∧
    (bindings.map (·.bindingId)).Perm (stage.schema.inputs.map (·.binding)) ∧
    ∀ catalog, ∀ expr ∈ stage.compiled, CatalogOnly (compileScalarExpression catalog expr bindings)

theorem accepted_compiles (plan : DataflowPlan) (accepted : Accepted plan) (stageId : Nat) (stage : DataflowStage)
    (found : plan.stages[stageId]? = some stage) : Compiles plan stage := by
  intro inputs live
  obtain ⟨bindings, done, perm, named⟩ := compile_stage_bindings_ok accepted found live
  refine ⟨bindings, done, perm, ?_⟩
  intro catalog expr member
  have here := accepted.stages stageId stage found
  apply compile_scalar_only_catalog catalog _ bindings expr (compiled_scoped stageId stage here expr member) named
  · exact perm.nodup_iff.mpr here.bindings
  · intro binding known
    rw [typed_get, typed_inputs_keys] at known
    exact perm.mem_iff.mpr known

end Shiba.Planner
