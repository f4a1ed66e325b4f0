import Shiba.Postgres

set_option autoImplicit false

namespace Shiba.Planner

abbrev BindingId := Nat
abbrev SlotId := Nat

structure SlotType where
  typeOid : Oid
  typmod : Int
  collationOid : Oid
  nullable : Bool
deriving DecidableEq, Repr

inductive BoolExprKind where
  | and
  | or
  | not
deriving DecidableEq, Repr

inductive BooleanTestKind where
  | true
  | notTrue
  | false
  | notFalse
  | unknown
  | notUnknown
deriving DecidableEq, Repr

-- A constant without a value is SQL NULL; `caseTest` stands for the operand of
-- the simple CASE around it.
mutual
inductive ScalarExpr where
  | input (binding : BindingId)
  | constant (type : SlotType) (value : Option String)
  | call (functionOid : Oid) (args : List ScalarExpr) (type : SlotType)
  | operator (operatorOid : Oid) (args : List ScalarExpr) (type : SlotType)
  | distinct (operatorOid : Oid) (left right : ScalarExpr) (type : SlotType)
  | nullIf (operatorOid : Oid) (left right : ScalarExpr) (type : SlotType)
  | scalarArrayOperator (operatorOid : Oid) (left right : ScalarExpr) (useOr : Bool) (type : SlotType)
  | bool (op : BoolExprKind) (args : List ScalarExpr)
  | booleanTest (arg : ScalarExpr) (test : BooleanTestKind)
  | nullTest (arg : ScalarExpr) (isNot : Bool)
  | coalesce (args : List ScalarExpr) (type : SlotType)
  | caseExpr (operand : Option ScalarExpr) (arms : List CaseWhen) (elseExpr : ScalarExpr) (type : SlotType)
  | caseTest (type : SlotType)
  | relabel (arg : ScalarExpr) (type : SlotType)
  | coerceViaIo (arg : ScalarExpr) (type : SlotType)
  | coerceToDomain (arg : ScalarExpr) (type : SlotType)
  | collate (arg : ScalarExpr) (collationOid : Oid) (type : SlotType)

inductive CaseWhen where
  | mk (condition result : ScalarExpr)
end

-- The parts of an expression in the order `visit` calls its visitor on them.
mutual
def ScalarExpr.visit : ScalarExpr → List ScalarExpr
  | .input binding => [.input binding]
  | .constant type value => [.constant type value]
  | .caseTest type => [.caseTest type]
  | .call oid args type => .call oid args type :: visitAll args
  | .operator oid args type => .operator oid args type :: visitAll args
  | .bool op args => .bool op args :: visitAll args
  | .coalesce args type => .coalesce args type :: visitAll args
  | .scalarArrayOperator oid left right useOr type =>
      .scalarArrayOperator oid left right useOr type :: (left.visit ++ right.visit)
  | .distinct oid left right type => .distinct oid left right type :: (left.visit ++ right.visit)
  | .nullIf oid left right type => .nullIf oid left right type :: (left.visit ++ right.visit)
  | .booleanTest arg test => .booleanTest arg test :: arg.visit
  | .nullTest arg isNot => .nullTest arg isNot :: arg.visit
  | .relabel arg type => .relabel arg type :: arg.visit
  | .coerceViaIo arg type => .coerceViaIo arg type :: arg.visit
  | .coerceToDomain arg type => .coerceToDomain arg type :: arg.visit
  | .collate arg oid type => .collate arg oid type :: arg.visit
  | .caseExpr none arms elseExpr type =>
      .caseExpr none arms elseExpr type :: (visitArms arms ++ elseExpr.visit)
  | .caseExpr (some operand) arms elseExpr type =>
      .caseExpr (some operand) arms elseExpr type :: (operand.visit ++ (visitArms arms ++ elseExpr.visit))

def visitAll : List ScalarExpr → List ScalarExpr
  | [] => []
  | arg :: rest => arg.visit ++ visitAll rest

def visitArms : List CaseWhen → List ScalarExpr
  | [] => []
  | .mk condition result :: rest => condition.visit ++ (result.visit ++ visitArms rest)
end

structure NamedExpr where
  output : SlotId
  expr : ScalarExpr

structure SortGroupExpr where
  expr : ScalarExpr
  type : SlotType
  equalityOperatorOid : Oid
  sortOperatorOid : Oid

structure ScanColumn where
  output : SlotId
  attnum : Int
deriving DecidableEq, Repr

structure ScanSpec where
  sourceOid : Oid
  columns : List ScanColumn
deriving DecidableEq, Repr

structure FilterSpec where
  predicate : ScalarExpr
  outputs : List NamedExpr

structure ProjectSpec where
  expressions : List NamedExpr

inductive JoinKind where
  | inner
  | left
  | right
  | full
  | semi
  | anti
  | nullAwareAnti
deriving DecidableEq, Repr

structure JoinEquiKey where
  leftBinding : BindingId
  rightBinding : BindingId
deriving DecidableEq, Repr

structure JoinSpec where
  kind : JoinKind
  condition : ScalarExpr
  equiKeys : List JoinEquiKey
  outputs : List NamedExpr

structure DistinctSpec where
  keys : List SortGroupExpr
  outputs : List NamedExpr

structure GroupExpr where
  output : SlotId
  key : SortGroupExpr

structure AggregateExpr where
  refId : Nat
  output : SlotId
  functionOid : Oid
  args : List ScalarExpr
  directArgs : List ScalarExpr
  distinct : List SortGroupExpr
  filter : Option ScalarExpr
  orderBy : List SortGroupExpr
  type : SlotType

structure AggregateSpec where
  groups : List GroupExpr
  aggregates : List AggregateExpr

structure WindowFrame where
  startOffset : Option ScalarExpr
  endOffset : Option ScalarExpr
  startInRangeFunctionOid : Option Oid
  endInRangeFunctionOid : Option Oid

structure WindowExpr where
  refId : Nat
  output : SlotId
  functionOid : Oid
  args : List ScalarExpr
  filter : Option ScalarExpr
  type : SlotType

structure WindowSpec where
  partitionBy : List SortGroupExpr
  orderBy : List SortGroupExpr
  frame : WindowFrame
  functions : List WindowExpr
  outputs : List NamedExpr

structure TopNSpec where
  orderBy : List SortGroupExpr
  limit : Nat
  offset : Nat
  withTies : Bool
  outputs : List NamedExpr

inductive OperatorKind where
  | scan
  | filter
  | project
  | join
  | distinct
  | aggregate
  | window
  | topN
  | sink
deriving DecidableEq, Repr

-- The name `{:?}` prints.
def OperatorKind.name : OperatorKind → String
  | .scan => "Scan"
  | .filter => "Filter"
  | .project => "Project"
  | .join => "Join"
  | .distinct => "Distinct"
  | .aggregate => "Aggregate"
  | .window => "Window"
  | .topN => "TopN"
  | .sink => "Sink"

def OperatorKind.inputCount (kind : OperatorKind) : Nat :=
  if kind = .scan then 0
  else if kind = .join then 2
  else 1

inductive OperatorSpec where
  | scan (spec : ScanSpec)
  | filter (spec : FilterSpec)
  | project (spec : ProjectSpec)
  | join (spec : JoinSpec)
  | distinct (spec : DistinctSpec)
  | aggregate (spec : AggregateSpec)
  | window (spec : WindowSpec)
  | topN (spec : TopNSpec)
  | sink

def OperatorSpec.kind : OperatorSpec → OperatorKind
  | .scan _ => .scan
  | .filter _ => .filter
  | .project _ => .project
  | .join _ => .join
  | .distinct _ => .distinct
  | .aggregate _ => .aggregate
  | .window _ => .window
  | .topN _ => .topN
  | .sink => .sink

def OperatorSpec.outputSlots : OperatorSpec → List SlotId
  | .scan spec => spec.columns.map (·.output)
  | .filter spec => spec.outputs.map (·.output)
  | .project spec => spec.expressions.map (·.output)
  | .join spec => spec.outputs.map (·.output)
  | .distinct spec => spec.outputs.map (·.output)
  | .aggregate spec => spec.groups.map (·.output) ++ spec.aggregates.map (·.output)
  | .window spec => spec.outputs.map (·.output) ++ spec.functions.map (·.output)
  | .topN spec => spec.outputs.map (·.output)
  | .sink => []

def AggregateExpr.expressions (aggregate : AggregateExpr) : List ScalarExpr :=
  aggregate.args ++ aggregate.directArgs ++ aggregate.distinct.map (·.expr) ++ aggregate.filter.toList ++
    aggregate.orderBy.map (·.expr)

def WindowExpr.expressions (function : WindowExpr) : List ScalarExpr := function.args ++ function.filter.toList

def OperatorSpec.expressions : OperatorSpec → List ScalarExpr
  | .scan _ => []
  | .sink => []
  | .filter spec => spec.predicate :: spec.outputs.map (·.expr)
  | .project spec => spec.expressions.map (·.expr)
  | .join spec => spec.condition :: spec.outputs.map (·.expr)
  | .distinct spec => spec.keys.map (·.expr) ++ spec.outputs.map (·.expr)
  | .aggregate spec => spec.groups.map (·.key.expr) ++ spec.aggregates.flatMap (·.expressions)
  | .window spec => spec.partitionBy.map (·.expr) ++ spec.orderBy.map (·.expr) ++ spec.frame.startOffset.toList ++
      spec.frame.endOffset.toList ++ spec.functions.flatMap (·.expressions) ++ spec.outputs.map (·.expr)
  | .topN spec => spec.orderBy.map (·.expr) ++ spec.outputs.map (·.expr)

structure SlotBinding where
  sourceSlot : SlotId
  targetBinding : BindingId
deriving DecidableEq, Repr

structure DataflowInput where
  upstreamStageId : Nat
  bindings : List SlotBinding
deriving DecidableEq, Repr

structure InputSlot where
  binding : BindingId
  input : Nat
  type : SlotType
deriving DecidableEq, Repr

structure OutputSlot where
  slot : SlotId
  type : SlotType
deriving DecidableEq, Repr

structure StageSchema where
  inputs : List InputSlot
  outputs : List OutputSlot
deriving DecidableEq, Repr

-- The position in `inputs` is the input port.
structure DataflowStage where
  spec : OperatorSpec
  schema : StageSchema
  inputs : List DataflowInput

structure ExecutionSettings where
  timezone : String
  datestyle : String
  intervalstyle : String
  extraFloatDigits : Int
  byteaOutput : String
deriving DecidableEq, Repr

structure DataflowPlan where
  executionSettings : ExecutionSettings
  stages : List DataflowStage

end Shiba.Planner
