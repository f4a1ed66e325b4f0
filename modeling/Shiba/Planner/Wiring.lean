import Shiba.Planner.Scope
import Shiba.Planner.Accepted

set_option autoImplicit false

namespace Shiba.Planner

structure AttributeRef where
  name : String
  typeOid : Oid
  typmod : Int
  collationOid : Oid
deriving DecidableEq, Repr

-- A live payload: its alias in the statement and its row type's attributes.
structure BindingInput where
  attributes : List AttributeRef
  inputAlias : String

def attributeMatchesSlot (column : AttributeRef) (slot : SlotType) : Bool :=
  decide (column.typeOid = slot.typeOid) && decide (column.typmod = slot.typmod) &&
    decide (column.collationOid = slot.collationOid)

def validateAttributes : List AttributeRef → List OutputSlot → Except Fault Unit
  | column :: attributes, output :: outputs => do
      refuse (!attributeMatchesSlot column output.type) s!"typed payload for SlotId {output.slot} changed PostgreSQL type"
      validateAttributes attributes outputs
  | _, _ => .ok ()

def validateOutputAttributes (attributes : List AttributeRef) (outputs : List OutputSlot) : Except Fault Unit := do
  refuse (decide (attributes.length ≠ outputs.length)) "typed payload attribute count does not match its stage schema"
  validateAttributes attributes outputs

-- The upstream output's attribute; the two lists have one length by now, so
-- the source's index does not panic.
def attributeAt (attributes : List AttributeRef) (outputs : List OutputSlot) (slot : SlotId) : Option AttributeRef :=
  ((outputs.zip attributes).find? fun entry => decide (entry.1.slot = slot)).map (·.2)

def mapPort (inputs : List InputSlot) (outputs : List OutputSlot) (input : BindingInput) (port : Nat) :
    List SlotBinding → List BindingId → List SqlBinding → Except Fault (List BindingId × List SqlBinding)
  | [], mapped, bindings => .ok (mapped, bindings)
  | mapping :: rest, mapped, bindings => do
      refuse (decide (mapping.targetBinding ∈ mapped)) s!"stage maps BindingId {mapping.targetBinding} more than once"
      match inputSlot inputs mapping.targetBinding with
      | none => .error (.failed s!"edge maps unknown BindingId {mapping.targetBinding}")
      | some slot => do
          refuse (decide (slot.input ≠ port)) s!"BindingId {mapping.targetBinding} belongs to another input port"
          match attributeAt input.attributes outputs mapping.sourceSlot with
          | none => .error (.failed s!"edge references missing upstream SlotId {mapping.sourceSlot}")
          | some column => do
              refuse (!attributeMatchesSlot column slot.type) s!"BindingId {mapping.targetBinding} changed PostgreSQL type"
              mapPort inputs outputs input port rest (mapped ++ [mapping.targetBinding]) (bindings ++
                [{ bindingId := mapping.targetBinding, inputAlias := input.inputAlias, attributeName := column.name }])

def mapPorts (plan : DataflowPlan) (schema : List InputSlot) :
    Nat → List DataflowInput → List BindingInput → List BindingId → List SqlBinding →
      Except Fault (List BindingId × List SqlBinding)
  | port, edge :: edges, input :: inputs, mapped, bindings =>
      match plan.stages[edge.upstreamStageId]? with
      | none => .error (.failed "stage references a missing upstream stage")
      | some upstream => do
          validateOutputAttributes input.attributes upstream.schema.outputs
          let (mapped, bindings) ← mapPort schema upstream.schema.outputs input port edge.bindings mapped bindings
          mapPorts plan schema (port + 1) edges inputs mapped bindings
  | _, _, _, mapped, bindings => .ok (mapped, bindings)

def compileStageBindings (plan : DataflowPlan) (stage : DataflowStage) (inputs : List BindingInput) :
    Except Fault (List SqlBinding) := do
  refuse (decide (stage.inputs.length ≠ inputs.length))
    s!"stage has {stage.inputs.length} input edges but {inputs.length} live payloads"
  refuse (hasDuplicates (stage.schema.inputs.map (·.binding))) "stage has duplicate input BindingIds"
  let (mapped, bindings) ← mapPorts plan stage.schema.inputs 0 stage.inputs inputs [] []
  refuse (decide (mapped.length ≠ stage.schema.inputs.length)) "stage edges do not map every input BindingId"
  return bindings

-- What a stage compiles: its expressions, and for a Join its equality keys.
def DataflowStage.compiled (stage : DataflowStage) : List ScalarExpr :=
  stage.spec.expressions ++
    match stage.spec with
    | .join spec => spec.equiKeys.flatMap fun key => [.input key.leftBinding, .input key.rightBinding]
    | _ => []

def Feeds (plan : DataflowPlan) (upstream downstream : Nat) : Prop :=
  ∃ stage, plan.stages[downstream]? = some stage ∧ ∃ input ∈ stage.inputs, input.upstreamStageId = upstream

def SinkAt (plan : DataflowPlan) (stageId : Nat) : Prop :=
  ∃ stage, plan.stages[stageId]? = some stage ∧ stage.spec.kind = .sink

-- The stages are in topological order, and every one of them leads to the only Sink.
structure Wired (plan : DataflowPlan) : Prop where
  topological : ∀ upstream downstream, Feeds plan upstream downstream → upstream < downstream
  toSink : ∃ sink, (∀ stageId, SinkAt plan stageId ↔ stageId = sink) ∧
    ∀ stageId < plan.stages.length, Relation.ReflTransGen (Feeds plan) stageId sink

theorem count_one_unique {α : Type} (p : α → Bool) (items : List α) (one : items.countP p ≤ 1) (i j : Nat) (a b : α)
    (first : items[i]? = some a) (second : items[j]? = some b) (good : p a = true) (fine : p b = true) : i = j := by
  have distinct (k l : Nat) (c d : α) (order : k < l) (left : items[k]? = some c) (right : items[l]? = some d)
      (goodC : p c = true) (goodD : p d = true) : False := by
    have parts : items.take l ++ items.drop l = items := List.take_append_drop l items
    have early : 0 < (items.take l).countP p :=
      List.countP_pos_iff.mpr ⟨c, List.mem_of_getElem? (by rw [List.getElem?_take_of_lt order]; exact left), goodC⟩
    have late : 0 < (items.drop l).countP p :=
      List.countP_pos_iff.mpr ⟨d, List.mem_of_getElem? (i := 0) (by rw [List.getElem?_drop]; exact right), goodD⟩
    rw [← parts, List.countP_append] at one
    omega
  rcases Nat.lt_trichotomy i j with less | same | more
  · exact (distinct i j a b less first second good fine).elim
  · exact same
  · exact (distinct j i b a more second first fine good).elim

variable (plan : DataflowPlan)

theorem consumer_feeds (stageId : Nat) (some_ : consumersOf plan.stages stageId ≠ []) :
    ∃ downstream, Feeds plan stageId downstream := by
  obtain ⟨stage, member⟩ := List.exists_mem_of_ne_nil _ some_
  obtain ⟨inside, reads⟩ := List.mem_filter.mp member
  obtain ⟨downstream, found⟩ := List.mem_iff_getElem?.mp inside
  obtain ⟨input, edge, same⟩ := List.any_eq_true.mp reads
  exact ⟨downstream, stage, found, input, edge, of_decide_eq_true same⟩

theorem accepted_wired (accepted : Accepted plan) : Wired plan := by
  have topological : ∀ upstream downstream, Feeds plan upstream downstream → upstream < downstream := by
    rintro upstream downstream ⟨stage, found, input, edge, rfl⟩
    exact (accepted.stages downstream stage found).upstream input edge
  obtain ⟨sinkStage, inside, isSink⟩ : ∃ stage ∈ plan.stages, stage.isSink = true := by
    apply List.countP_pos_iff.mp
    rw [accepted.oneSink]
    exact Nat.one_pos
  obtain ⟨sink, found⟩ := List.mem_iff_getElem?.mp inside
  have only : ∀ stageId, SinkAt plan stageId ↔ stageId = sink := by
    intro stageId
    constructor
    · rintro ⟨stage, here, kind⟩
      exact count_one_unique _ _ (Nat.le_of_eq accepted.oneSink) _ _ _ _ here found (decide_eq_true kind) isSink
    · rintro rfl
      exact ⟨sinkStage, found, of_decide_eq_true isSink⟩
  refine ⟨topological, sink, only, ?_⟩
  intro stageId within
  -- A consumer stands later in the order, so the stages that are left get fewer.
  induction gap : plan.stages.length - stageId using Nat.strong_induction_on generalizing stageId with
  | _ gap ih =>
      by_cases same : stageId = sink
      · rw [same]
      · obtain ⟨stage, here⟩ : ∃ stage, plan.stages[stageId]? = some stage := ⟨_, List.getElem?_eq_getElem within⟩
        obtain ⟨downstream, feeds⟩ := consumer_feeds plan stageId (by
          intro none_
          exact same ((only stageId).mp ⟨stage, here, (accepted.consumed stageId stage here).mp none_⟩))
        have later := topological _ _ feeds
        have inRange : downstream < plan.stages.length := by
          obtain ⟨consumer, there, _⟩ := feeds
          exact (List.getElem?_eq_some_iff.mp there).1
        exact Relation.ReflTransGen.head feeds (ih (plan.stages.length - downstream) (by omega) downstream inRange rfl)

-- Every input binding is the target of one mapping, on its own port, from an
-- upstream slot of its type.
structure BoundOnce (plan : DataflowPlan) (stage : DataflowStage) : Prop where
  once : (targets stage.inputs).Perm (stage.schema.inputs.map (·.binding))
  distinct : (stage.schema.inputs.map (·.binding)).Nodup
  typed : ∀ (port : Nat) (input : DataflowInput), stage.inputs[port]? = some input → ∀ binding ∈ input.bindings,
    ∃ target ∈ stage.schema.inputs, ∃ source ∈ outputsOf plan.stages input.upstreamStageId,
      target.binding = binding.targetBinding ∧ target.input = port ∧ source.slot = binding.sourceSlot ∧
        source.type = target.type

theorem input_slot_mem (inputs : List InputSlot) (binding : BindingId) (slot : InputSlot)
    (found : inputSlot inputs binding = some slot) : slot ∈ inputs ∧ slot.binding = binding := by
  refine ⟨List.mem_of_find?_eq_some found, ?_⟩
  have same := List.find?_some found
  exact of_decide_eq_true same

theorem slot_type_mem (outputs : List OutputSlot) (slot : SlotId) (type : SlotType)
    (found : slotType outputs slot = some type) : ∃ output ∈ outputs, output.slot = slot ∧ output.type = type := by
  obtain ⟨output, first, same⟩ := Option.map_eq_some_iff.mp found
  have here := List.find?_some first
  exact ⟨output, List.mem_of_find?_eq_some first, of_decide_eq_true here, same⟩

theorem targets_declared (stage : DataflowStage) (slots : SlotsAccepted plan.stages stage) (binding : BindingId)
    (member : binding ∈ targets stage.inputs) : binding ∈ stage.schema.inputs.map (·.binding) := by
  obtain ⟨input, edge, inside⟩ := List.mem_flatMap.mp member
  obtain ⟨port, found⟩ := List.mem_iff_getElem?.mp edge
  obtain ⟨mapping, mapped, rfl⟩ := List.mem_map.mp inside
  obtain ⟨source, target, _, targetFound, _, _⟩ := slots.wellBound port input found mapping mapped
  obtain ⟨declared, same⟩ := input_slot_mem _ _ _ targetFound
  exact List.mem_map.mpr ⟨target, declared, same⟩

theorem targets_perm (stage : DataflowStage) (slots : SlotsAccepted plan.stages stage)
    (distinct : (stage.schema.inputs.map (·.binding)).Nodup) :
    (targets stage.inputs).Perm (stage.schema.inputs.map (·.binding)) := by
  apply (List.perm_ext_iff_of_nodup slots.distinct distinct).mpr
  intro binding
  constructor
  · exact targets_declared plan stage slots binding
  · intro member
    obtain ⟨input, declared, rfl⟩ := List.mem_map.mp member
    exact slots.covered input declared

theorem accepted_bound_once (accepted : Accepted plan) (stageId : Nat) (stage : DataflowStage)
    (found : plan.stages[stageId]? = some stage) : BoundOnce plan stage := by
  have slots := accepted.slots stage (List.mem_of_getElem? found)
  have distinct := (accepted.stages stageId stage found).bindings
  refine ⟨targets_perm plan stage slots distinct, distinct, ?_⟩
  intro port input here binding member
  obtain ⟨source, target, sourceFound, targetFound, onPort, same⟩ := slots.wellBound port input here binding member
  obtain ⟨declared, bindingSame⟩ := input_slot_mem _ _ _ targetFound
  obtain ⟨output, offered, slotSame, typeSame⟩ := slot_type_mem _ _ _ sourceFound
  exact ⟨target, declared, output, offered, bindingSame, onPort, slotSame, typeSame.trans same⟩

end Shiba.Planner
