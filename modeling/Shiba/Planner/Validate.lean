import Shiba.Planner.Model

set_option autoImplicit false

namespace Shiba.Planner

-- The stage's input bindings with their types. The source keeps them in a
-- HashMap; a second entry for one binding is refused before it is used.
abbrev TypedBindings := List (BindingId × SlotType)

def TypedBindings.get (bindings : TypedBindings) (binding : BindingId) : Option SlotType :=
  (bindings.find? fun entry => decide (entry.1 = binding)).map (·.2)

def hasDuplicates (values : List Nat) : Bool := !decide values.Nodup

def validateSlotType (type : SlotType) (nodeId : String) : Except Fault Unit :=
  refuse (decide (type.typeOid = 0)) s!"node {nodeId} declares a slot with invalid type OID"

def booleanType : SlotType := { typeOid := 16, typmod := -1, collationOid := 0, nullable := true }

def expressionType (bindings : TypedBindings) : ScalarExpr → Option SlotType
  | .input binding => bindings.get binding
  | .constant type _ | .call _ _ type | .operator _ _ type | .distinct _ _ _ type | .nullIf _ _ _ type
  | .scalarArrayOperator _ _ _ _ type | .coalesce _ type | .caseExpr _ _ _ type | .caseTest type | .relabel _ type
  | .coerceViaIo _ type | .coerceToDomain _ type | .collate _ _ type => some type
  | .bool _ _ | .booleanTest _ _ | .nullTest _ _ => some booleanType

-- What `validate_scalar_expr` reports for one part of an expression.
def partError (bindings : TypedBindings) (nodeId : String) : ScalarExpr → Option String
  | .input binding =>
      if (bindings.get binding).isNone then
        some s!"node {nodeId} expression references unknown input binding BindingId({binding})"
      else none
  | .constant type _ => if type.typeOid = 0 then some s!"node {nodeId} has an invalid constant" else none
  | .call functionOid _ type =>
      if functionOid = 0 ∨ type.typeOid = 0 then some s!"node {nodeId} has an invalid function call" else none
  | .operator operatorOid _ type | .distinct operatorOid _ _ type | .nullIf operatorOid _ _ type
  | .scalarArrayOperator operatorOid _ _ _ type =>
      if operatorOid = 0 ∨ type.typeOid = 0 then some s!"node {nodeId} has an invalid operator call" else none
  | .bool op args =>
      if args.isEmpty ∨ (op = .not ∧ args.length ≠ 1) then some s!"node {nodeId} has an invalid boolean expression"
      else none
  | .coalesce args type =>
      if args.isEmpty ∨ type.typeOid = 0 then some s!"node {nodeId} has an invalid coalesce expression" else none
  | .caseExpr _ arms _ type =>
      if arms.isEmpty ∨ type.typeOid = 0 then some s!"node {nodeId} has an invalid case expression" else none
  | .caseTest type => if type.typeOid = 0 then some s!"node {nodeId} has an invalid CASE operand placeholder" else none
  | .relabel _ type | .coerceViaIo _ type | .coerceToDomain _ type | .collate _ _ type =>
      if type.typeOid = 0 then some s!"node {nodeId} has an invalid coercion" else none
  | .booleanTest _ _ | .nullTest _ _ => none

mutual
def validateCaseTestScope (bindings : TypedBindings) (nodeId : String) (caseOperands : List SlotType) :
    ScalarExpr → Except Fault Unit
  | .caseTest type =>
      match caseOperands.getLast? with
      | none => .error (.failed s!"node {nodeId} has a CASE operand placeholder outside a simple CASE arm")
      | some operandType =>
          refuse (decide (type.typeOid ≠ operandType.typeOid) || decide (type.typmod ≠ operandType.typmod) ||
            decide (type.collationOid ≠ operandType.collationOid))
            s!"node {nodeId} has a CASE operand placeholder with the wrong type"
  | .input _ | .constant _ _ => .ok ()
  | .call _ args _ | .operator _ args _ | .bool _ args | .coalesce args _ =>
      validateScopeAll bindings nodeId caseOperands args
  | .distinct _ left right _ | .nullIf _ left right _ | .scalarArrayOperator _ left right _ _ => do
      validateCaseTestScope bindings nodeId caseOperands left
      validateCaseTestScope bindings nodeId caseOperands right
  | .booleanTest arg _ | .nullTest arg _ | .relabel arg _ | .coerceViaIo arg _ | .coerceToDomain arg _
  | .collate arg _ _ => validateCaseTestScope bindings nodeId caseOperands arg
  | .caseExpr none arms elseExpr _ => do
      validateScopeArms bindings nodeId caseOperands caseOperands arms
      validateCaseTestScope bindings nodeId caseOperands elseExpr
  | .caseExpr (some operand) arms elseExpr _ => do
      validateCaseTestScope bindings nodeId caseOperands operand
      match expressionType bindings operand with
      | none => .error (.failed s!"node {nodeId} has a simple CASE operand with no type")
      | some operandType => do
          validateScopeArms bindings nodeId caseOperands (caseOperands ++ [operandType]) arms
          validateCaseTestScope bindings nodeId caseOperands elseExpr

def validateScopeAll (bindings : TypedBindings) (nodeId : String) (caseOperands : List SlotType) :
    List ScalarExpr → Except Fault Unit
  | [] => .ok ()
  | arg :: rest => do
      validateCaseTestScope bindings nodeId caseOperands arg
      validateScopeAll bindings nodeId caseOperands rest

def validateScopeArms (bindings : TypedBindings) (nodeId : String) (caseOperands armOperands : List SlotType) :
    List CaseWhen → Except Fault Unit
  | [] => .ok ()
  | .mk condition result :: rest => do
      validateCaseTestScope bindings nodeId armOperands condition
      validateCaseTestScope bindings nodeId caseOperands result
      validateScopeArms bindings nodeId caseOperands armOperands rest
end

def validateScalarExpr (bindings : TypedBindings) (nodeId : String) (expression : ScalarExpr) : Except Fault Unit :=
  match expression.visit.findSome? (partError bindings nodeId) with
  | some error => .error (.failed error)
  | none => validateCaseTestScope bindings nodeId [] expression

def validateExpressionType (expression : ScalarExpr) (declared : SlotType) (bindings : TypedBindings) (label role : String) :
    Except Fault Unit :=
  match expressionType bindings expression with
  | none => .error (.failed s!"{label} has a {role} expression with no resolved type")
  | some resolved =>
      refuse (decide (resolved ≠ declared))
        s!"{label} has a {role} expression whose declared type does not match its expression"

def validateSortGroupExpression (sort : SortGroupExpr) (bindings : TypedBindings) (label role : String) :
    Except Fault Unit := do
  refuse (decide (sort.equalityOperatorOid = 0) || decide (sort.sortOperatorOid = 0))
    s!"{label} has an invalid {role} operator"
  validateSlotType sort.type label
  validateExpressionType sort.expr sort.type bindings label role

-- A `for` loop that returns with the first error.
def validateEach {α : Type} (validate : α → Except Fault Unit) : List α → Except Fault Unit
  | [] => .ok ()
  | item :: rest => do
      validate item
      validateEach validate rest

def equiKeyInvalid (inputs : List InputSlot) (bindings : TypedBindings) (key : JoinEquiKey) : Bool :=
  (bindings.get key.leftBinding).isNone || (bindings.get key.rightBinding).isNone ||
    decide (bindings.get key.leftBinding ≠ bindings.get key.rightBinding) ||
    ((inputs.find? fun input => decide (input.binding = key.leftBinding)).all fun input => decide (input.input ≠ 0)) ||
    ((inputs.find? fun input => decide (input.binding = key.rightBinding)).all fun input => decide (input.input ≠ 1))

def validateAggregate (spec : AggregateSpec) (label : String) (bindings : TypedBindings) : Except Fault Unit := do
  refuse (hasDuplicates (spec.aggregates.map (·.refId)) ||
    spec.aggregates.any fun aggregate => decide (aggregate.refId = 0) || decide (aggregate.functionOid = 0))
    s!"{label} has an invalid aggregate reference"
  validateEach (fun (group : GroupExpr) => validateSortGroupExpression group.key bindings label "GROUP BY key") spec.groups
  validateEach (fun (aggregate : AggregateExpr) => do
    validateSlotType aggregate.type label
    validateEach (validateSortGroupExpression · bindings label "aggregate DISTINCT key") aggregate.distinct
    validateEach (validateSortGroupExpression · bindings label "aggregate ORDER BY key") aggregate.orderBy) spec.aggregates

def validateWindow (spec : WindowSpec) (label : String) (bindings : TypedBindings) : Except Fault Unit := do
  refuse (hasDuplicates (spec.functions.map (·.refId)) ||
    (spec.functions.any fun function => decide (function.refId = 0) || decide (function.functionOid = 0)) ||
    decide (spec.frame.startInRangeFunctionOid = some 0) || decide (spec.frame.endInRangeFunctionOid = some 0))
    s!"{label} has an invalid Window specification"
  validateEach (fun (function : WindowExpr) => validateSlotType function.type label) spec.functions
  validateEach (validateSortGroupExpression · bindings label "window PARTITION BY key") spec.partitionBy
  validateEach (validateSortGroupExpression · bindings label "window ORDER BY key") spec.orderBy

def validateSpec (stage : DataflowStage) (label : String) (bindings : TypedBindings) : Except Fault Unit :=
  match stage.spec with
  | .scan spec =>
      refuse (decide (spec.sourceOid = 0) || (spec.columns.any fun column => decide (column.attnum = 0)) ||
        hasDuplicates (spec.columns.map (·.output))) s!"{label} has an invalid Scan specification"
  | .distinct spec => validateEach (validateSortGroupExpression · bindings label "DISTINCT key") spec.keys
  | .join spec => do
      refuse (spec.equiKeys.any (equiKeyInvalid stage.schema.inputs bindings)) s!"{label} has invalid Join equality keys"
      refuse (decide (spec.kind = .nullAwareAnti) && !spec.equiKeys.isEmpty)
        s!"{label} NullAwareAnti Join cannot use equality key arrangements"
  | .aggregate spec => validateAggregate spec label bindings
  | .window spec => validateWindow spec label bindings
  | .topN spec => do
      refuse spec.orderBy.isEmpty s!"{label} has an invalid TopN ordering"
      validateEach (validateSortGroupExpression · bindings label "TopN ORDER BY key") spec.orderBy
  | .filter _ | .project _ | .sink => .ok ()

def validateOperatorSpec (stage : DataflowStage) (label : String) (bindings : TypedBindings) : Except Fault Unit := do
  validateSpec stage label bindings
  validateEach (validateScalarExpr bindings label) stage.spec.expressions

def declareInputs (label : String) (inputCount : Nat) : List InputSlot → TypedBindings → Except Fault TypedBindings
  | [], bindings => .ok bindings
  | input :: rest, bindings => do
      refuse (decide (inputCount ≤ input.input))
        s!"{label} declares binding BindingId({input.binding}) on invalid input port {input.input}"
      validateSlotType input.type label
      refuse (bindings.get input.binding).isSome s!"{label} declares duplicate input binding BindingId({input.binding})"
      declareInputs label inputCount rest (bindings ++ [(input.binding, input.type)])

def declareOutputs (label : String) : List OutputSlot → List SlotId → Except Fault Unit
  | [], _ => .ok ()
  | output :: rest, slots => do
      validateSlotType output.type label
      refuse (decide (output.slot ∈ slots)) s!"{label} declares duplicate output slot SlotId({output.slot})"
      declareOutputs label rest (slots ++ [output.slot])

def validateStage (stage : DataflowStage) (label : String) : Except Fault Unit := do
  let bindings ← declareInputs label stage.spec.kind.inputCount stage.schema.inputs []
  declareOutputs label stage.schema.outputs []
  refuse (decide (stage.spec.outputSlots ≠ stage.schema.outputs.map (·.slot)))
    s!"{label} operator outputs do not match its schema"
  validateOperatorSpec stage label bindings

def validateExecutionSettings (settings : ExecutionSettings) : Except Fault Unit :=
  refuse (settings.timezone.isEmpty || settings.datestyle.isEmpty || settings.intervalstyle.isEmpty ||
    !(decide (-15 ≤ settings.extraFloatDigits) && decide (settings.extraFloatDigits ≤ 3)) ||
    !(settings.byteaOutput == "hex" || settings.byteaOutput == "escape"))
    "dataflow plan has invalid captured execution settings"

def validateSourceOid (spec : OperatorSpec) (label : String) : Except Fault Unit :=
  match spec with
  | .scan spec => refuse (decide (spec.sourceOid = 0)) s!"{label} has an invalid source OID"
  | _ => .ok ()

-- The loop over the stages, from stage `stageId` on.
def validateStages : Nat → List DataflowStage → Except Fault Unit
  | _, [] => .ok ()
  | stageId, stage :: rest => do
      let label := s!"stage {stageId}"
      refuse (decide (stage.inputs.length ≠ stage.spec.kind.inputCount))
        s!"{label} ({stage.spec.kind.name}) requires {stage.spec.kind.inputCount} inputs, found {stage.inputs.length}"
      refuse (stage.inputs.any fun input => decide (stageId ≤ input.upstreamStageId)) s!"{label} has a non-upstream input"
      validateStage stage label
      validateSourceOid stage.spec label
      validateStages (stageId + 1) rest

-- The stages that read the stage's output.
def consumersOf (stages : List DataflowStage) (stageId : Nat) : List DataflowStage :=
  stages.filter fun stage => stage.inputs.any fun input => decide (input.upstreamStageId = stageId)

def validateConsumers (stages : List DataflowStage) : Nat → List DataflowStage → Except Fault Unit
  | _, [] => .ok ()
  | stageId, stage :: rest => do
      if stage.spec.kind = .sink then
        refuse (!(consumersOf stages stageId).isEmpty) s!"Sink stage {stageId} has a downstream consumer"
      else
        refuse (consumersOf stages stageId).isEmpty s!"stage {stageId} has no durable path to the Sink"
      validateConsumers stages (stageId + 1) rest

def slotType (outputs : List OutputSlot) (slot : SlotId) : Option SlotType :=
  (outputs.find? fun output => decide (output.slot = slot)).map (·.type)

def inputSlot (inputs : List InputSlot) (binding : BindingId) : Option InputSlot :=
  inputs.find? fun input => decide (input.binding = binding)

-- One port's bindings; the result is what is bound by now.
def bindSlots (stageId : Nat) (stage : DataflowStage) (upstream : List OutputSlot) (port : Nat) (upstreamId : Nat) :
    List SlotBinding → List BindingId → Except Fault (List BindingId)
  | [], bound => .ok bound
  | binding :: rest, bound =>
      match slotType upstream binding.sourceSlot with
      | none => .error (.failed s!"input {upstreamId} -> {stageId} references an unknown output slot")
      | some source =>
          match inputSlot stage.schema.inputs binding.targetBinding with
          | none => .error (.failed s!"input {upstreamId} -> {stageId} references an unknown input binding")
          | some target => do
              refuse (decide (target.input ≠ port) || decide (source ≠ target.type) ||
                decide (binding.targetBinding ∈ bound))
                s!"input {upstreamId} -> {stageId} has an invalid slot binding"
              bindSlots stageId stage upstream port upstreamId rest (bound ++ [binding.targetBinding])

-- An upstream stage that does not exist would be a panic; the first loop has refused it.
def outputsOf (stages : List DataflowStage) (stageId : Nat) : List OutputSlot :=
  match stages[stageId]? with
  | some stage => stage.schema.outputs
  | none => []

def bindPorts (stages : List DataflowStage) (stageId : Nat) (stage : DataflowStage) :
    Nat → List DataflowInput → List BindingId → Except Fault (List BindingId)
  | _, [], bound => .ok bound
  | port, input :: rest, bound => do
      let bound ← bindSlots stageId stage (outputsOf stages input.upstreamStageId) port input.upstreamStageId
        input.bindings bound
      bindPorts stages stageId stage (port + 1) rest bound

def validateSlotBindings (stages : List DataflowStage) : Nat → List DataflowStage → Except Fault Unit
  | _, [] => .ok ()
  | stageId, stage :: rest => do
      let bound ← bindPorts stages stageId stage 0 stage.inputs []
      refuse (stage.schema.inputs.any fun input => decide (input.binding ∉ bound)) s!"stage {stageId} has an unbound input"
      validateSlotBindings stages (stageId + 1) rest

def DataflowStage.isSink (stage : DataflowStage) : Bool := decide (stage.spec.kind = .sink)

def DataflowStage.isScan (stage : DataflowStage) : Bool := decide (stage.spec.kind = .scan)

def DataflowPlan.validate (plan : DataflowPlan) : Except Fault Unit := do
  validateExecutionSettings plan.executionSettings
  refuse plan.stages.isEmpty "dataflow plan has no stages"
  validateStages 0 plan.stages
  refuse (decide (plan.stages.countP DataflowStage.isScan = 0)) "dataflow plan has no Scan stage"
  refuse (decide (plan.stages.countP DataflowStage.isSink ≠ 1))
    s!"dataflow plan must contain exactly one Sink, found {plan.stages.countP DataflowStage.isSink}"
  validateConsumers plan.stages 0 plan.stages
  validateSlotBindings plan.stages 0 plan.stages

end Shiba.Planner
