import Shiba.Planner.Model

set_option autoImplicit false

namespace Shiba.Planner

structure SqlBinding where
  bindingId : BindingId
  inputAlias : String
  attributeName : String
deriving DecidableEq, Repr

structure FunctionName where
  schema : String
  name : String
deriving DecidableEq, Repr

structure OperatorName where
  schema : String
  name : String
  kind : Char
deriving DecidableEq, Repr

-- The system catalogs: each lookup may fail with a message of its own.
structure Catalog where
  function : Oid → Except String FunctionName
  operator : Oid → Except String OperatorName
  typeName : SlotType → Except String String
  collation : Oid → Except String FunctionName

-- `catalog` covers what depends on the catalogs: a lookup that failed, or an
-- operator whose kind does not fit its use.
inductive CompileFault where
  | emptyIdentifier (binding : BindingId)
  | duplicateBinding (binding : BindingId)
  | unknownBinding (binding : BindingId)
  | booleanArity
  | coalesceEmpty
  | caseEmpty
  | caseTestOutside
  | catalog (message : String)
deriving DecidableEq, Repr

def CompileFault.message : CompileFault → String
  | .emptyIdentifier binding => s!"scalar binding {binding} has an empty identifier"
  | .duplicateBinding binding => s!"duplicate scalar binding {binding}"
  | .unknownBinding binding => s!"unknown scalar binding {binding}"
  | .booleanArity => "boolean expression has invalid arity"
  | .coalesceEmpty => "COALESCE has no arguments"
  | .caseEmpty => "CASE has no arms"
  | .caseTestOutside => "CASE operand placeholder is outside a simple CASE arm"
  | .catalog message => message

abbrev Compiled := Except CompileFault

def resolve {α : Type} (found : Except String α) : Compiled α :=
  match found with
  | .ok value => .ok value
  | .error message => .error (.catalog message)

def quoteIdentifier (identifier : String) : String :=
  String.ofList ('"' :: (identifier.toList.flatMap fun c => if c = '"' then ['"', '"'] else [c]) ++ ['"'])

example : quoteIdentifier "odd\"name" = "\"odd\"\"name\"" := by decide

def hexByte (byte : UInt8) : String :=
  String.ofList [Nat.digitChar (byte.toNat / 16), Nat.digitChar (byte.toNat % 16)]

def hexText (text : String) : String := String.join (text.toUTF8.toList.map hexByte)

def qualifiedOperator (operator : OperatorName) : String :=
  "OPERATOR(" ++ quoteIdentifier operator.schema ++ "." ++ operator.name ++ ")"

def constantSql (catalog : Catalog) (type : SlotType) (value : Option String) : Compiled String := do
  let typeName ← resolve (catalog.typeName type)
  let input := match value with
    | none => "NULL"
    | some text => "pg_catalog.convert_from(pg_catalog.decode('" ++ hexText text ++ "', 'hex'), 'UTF8')"
  return "CAST(" ++ input ++ " AS " ++ typeName ++ ")"

def booleanTestSql : BooleanTestKind → String
  | .true => "TRUE"
  | .notTrue => "NOT TRUE"
  | .false => "FALSE"
  | .notFalse => "NOT FALSE"
  | .unknown => "UNKNOWN"
  | .notUnknown => "NOT UNKNOWN"

def binaryOperator (catalog : Catalog) (oid : Oid) (role : String) : Compiled OperatorName := do
  let operator ← resolve (catalog.operator oid)
  if operator.kind ≠ 'b' then .error (.catalog s!"{role} operator OID {oid} is not binary") else return operator

def distinctSql (scope : Nat) (operator : OperatorName) (left right : String) : String :=
  let aliasSql := quoteIdentifier s!"__shiba_distinct_{scope}"
  "(SELECT CASE WHEN " ++ aliasSql ++ ".left_value IS NULL THEN " ++ aliasSql ++ ".right_value IS NOT NULL WHEN " ++
    aliasSql ++ ".right_value IS NULL THEN TRUE ELSE NOT (" ++ aliasSql ++ ".left_value " ++ qualifiedOperator operator ++
    " " ++ aliasSql ++ ".right_value) END FROM (SELECT " ++ left ++ " AS left_value, " ++ right ++
    " AS right_value) AS " ++ aliasSql ++ ")"

def nullIfSql (scope : Nat) (operator : OperatorName) (typeName left right : String) : String :=
  let aliasSql := quoteIdentifier s!"__shiba_nullif_{scope}"
  "(SELECT CASE WHEN (" ++ aliasSql ++ ".left_value " ++ qualifiedOperator operator ++ " " ++ aliasSql ++
    ".right_value) THEN CAST(NULL AS " ++ typeName ++ ") ELSE " ++ aliasSql ++ ".left_value END FROM (SELECT " ++ left ++
    " AS left_value, " ++ right ++ " AS right_value) AS " ++ aliasSql ++ ")"

def boolSql (op : BoolExprKind) (compiled : List String) : Compiled String :=
  match op with
  | .and => if compiled.isEmpty then .error .booleanArity else .ok ("(" ++ " AND ".intercalate compiled ++ ")")
  | .or => if compiled.isEmpty then .error .booleanArity else .ok ("(" ++ " OR ".intercalate compiled ++ ")")
  | .not =>
      match compiled with
      | [only] => .ok ("(NOT (" ++ only ++ "))")
      | _ => .error .booleanArity

def invalidArity (oid : Oid) : CompileFault := .catalog s!"operator OID {oid} has invalid arity"

def caseAlias (scope : Nat) : String := s!"__shiba_case_{scope}"

-- `bindings` maps a binding to its input alias and attribute, `caseOperands` are
-- the operands of the simple CASE arms around the expression.
mutual
def compileScoped (catalog : Catalog) (bindings : List SqlBinding) (caseOperands : List String) :
    ScalarExpr → Compiled String
  | .input binding =>
      match bindings.find? fun entry => decide (entry.bindingId = binding) with
      | none => .error (.unknownBinding binding)
      | some entry =>
          .ok ("(" ++ quoteIdentifier entry.inputAlias ++ ".row_value)." ++ quoteIdentifier entry.attributeName)
  | .constant type value => constantSql catalog type value
  | .call functionOid args _ => do
      let function ← resolve (catalog.function functionOid)
      let compiled ← compileAll catalog bindings caseOperands args
      return quoteIdentifier function.schema ++ "." ++ quoteIdentifier function.name ++ "(" ++
        ", ".intercalate compiled ++ ")"
  | .operator oid [left, right] _ => do
      let operator ← resolve (catalog.operator oid)
      if operator.kind = 'b' then do
        let left ← compileScoped catalog bindings caseOperands left
        let right ← compileScoped catalog bindings caseOperands right
        return "(" ++ left ++ " " ++ qualifiedOperator operator ++ " " ++ right ++ ")"
      else .error (invalidArity oid)
  | .operator oid [arg] _ => do
      let operator ← resolve (catalog.operator oid)
      if operator.kind = 'l' then do
        let right ← compileScoped catalog bindings caseOperands arg
        return "(" ++ qualifiedOperator operator ++ " " ++ right ++ ")"
      else if operator.kind = 'r' then do
        let left ← compileScoped catalog bindings caseOperands arg
        return "(" ++ left ++ " " ++ qualifiedOperator operator ++ ")"
      else .error (invalidArity oid)
  | .operator oid _ _ => do
      let _ ← resolve (catalog.operator oid)
      .error (invalidArity oid)
  | .distinct oid left right _ => do
      let operator ← binaryOperator catalog oid "DISTINCT"
      let left ← compileScoped catalog bindings caseOperands left
      let right ← compileScoped catalog bindings caseOperands right
      return distinctSql caseOperands.length operator left right
  | .nullIf oid left right type => do
      let operator ← binaryOperator catalog oid "NULLIF"
      let typeName ← resolve (catalog.typeName type)
      let left ← compileScoped catalog bindings caseOperands left
      let right ← compileScoped catalog bindings caseOperands right
      return nullIfSql caseOperands.length operator typeName left right
  | .scalarArrayOperator oid left right useOr _ => do
      let operator ← binaryOperator catalog oid "scalar-array"
      let left ← compileScoped catalog bindings caseOperands left
      let right ← compileScoped catalog bindings caseOperands right
      return "(" ++ left ++ " " ++ qualifiedOperator operator ++ " " ++ (if useOr then "ANY" else "ALL") ++ " (" ++
        right ++ "))"
  | .bool op args => do
      let compiled ← compileAll catalog bindings caseOperands args
      boolSql op compiled
  | .booleanTest arg test => do
      let arg ← compileScoped catalog bindings caseOperands arg
      return "((" ++ arg ++ ") IS " ++ booleanTestSql test ++ ")"
  | .nullTest arg isNot => do
      let arg ← compileScoped catalog bindings caseOperands arg
      return "((" ++ arg ++ ") IS " ++ (if isNot then "NOT " else "") ++ "NULL)"
  | .coalesce args _ =>
      if args.isEmpty then .error .coalesceEmpty
      else do
        let compiled ← compileAll catalog bindings caseOperands args
        return "COALESCE(" ++ ", ".intercalate compiled ++ ")"
  | .caseExpr none arms elseExpr _ =>
      if arms.isEmpty then .error .caseEmpty
      else do
        let arms ← compileArms catalog bindings caseOperands caseOperands arms
        let elseSql ← compileScoped catalog bindings caseOperands elseExpr
        return "(CASE" ++ arms ++ " ELSE " ++ elseSql ++ " END)"
  | .caseExpr (some operand) arms elseExpr _ =>
      if arms.isEmpty then .error .caseEmpty
      else do
        let aliasSql := quoteIdentifier (caseAlias caseOperands.length)
        let arms ← compileArms catalog bindings caseOperands (caseOperands ++ [aliasSql ++ ".value"]) arms
        let elseSql ← compileScoped catalog bindings caseOperands elseExpr
        let operand ← compileScoped catalog bindings caseOperands operand
        return "(SELECT (CASE" ++ arms ++ " ELSE " ++ elseSql ++ " END) FROM (SELECT " ++ operand ++ " AS value) AS " ++
          aliasSql ++ ")"
  | .caseTest _ =>
      match caseOperands.getLast? with
      | none => .error .caseTestOutside
      | some operand => .ok operand
  | .relabel arg type | .coerceViaIo arg type | .coerceToDomain arg type => do
      let arg ← compileScoped catalog bindings caseOperands arg
      let typeName ← resolve (catalog.typeName type)
      return "CAST((" ++ arg ++ ") AS " ++ typeName ++ ")"
  | .collate arg collationOid _ => do
      let collation ← resolve (catalog.collation collationOid)
      let arg ← compileScoped catalog bindings caseOperands arg
      return "((" ++ arg ++ ") COLLATE " ++ quoteIdentifier collation.schema ++ "." ++
        quoteIdentifier collation.name ++ ")"

def compileAll (catalog : Catalog) (bindings : List SqlBinding) (caseOperands : List String) :
    List ScalarExpr → Compiled (List String)
  | [] => .ok []
  | arg :: rest => do
      let arg ← compileScoped catalog bindings caseOperands arg
      let rest ← compileAll catalog bindings caseOperands rest
      return arg :: rest

def compileArms (catalog : Catalog) (bindings : List SqlBinding) (caseOperands armOperands : List String) :
    List CaseWhen → Compiled String
  | [] => .ok ""
  | .mk condition result :: rest => do
      let condition ← compileScoped catalog bindings armOperands condition
      let result ← compileScoped catalog bindings caseOperands result
      let rest ← compileArms catalog bindings caseOperands armOperands rest
      return " WHEN " ++ condition ++ " THEN " ++ result ++ rest
end

def validateType (catalog : Catalog) (type : SlotType) : Compiled Unit := do
  let _ ← resolve (catalog.typeName type)
  if type.collationOid ≠ 0 then do
    let _ ← resolve (catalog.collation type.collationOid)
    return ()
  else return ()

def validatePart (catalog : Catalog) : ScalarExpr → Compiled Unit
  | .input _ | .bool _ _ | .booleanTest _ _ | .nullTest _ _ => .ok ()
  | .constant type _ | .coalesce _ type | .caseExpr _ _ _ type | .caseTest type | .relabel _ type | .coerceViaIo _ type
  | .coerceToDomain _ type => validateType catalog type
  | .call functionOid _ type => do
      let _ ← resolve (catalog.function functionOid)
      validateType catalog type
  | .operator operatorOid _ type | .distinct operatorOid _ _ type | .nullIf operatorOid _ _ type
  | .scalarArrayOperator operatorOid _ _ _ type => do
      let _ ← resolve (catalog.operator operatorOid)
      validateType catalog type
  | .collate _ collationOid type => do
      let _ ← resolve (catalog.collation collationOid)
      validateType catalog type

def validateScalarCatalog (catalog : Catalog) : List ScalarExpr → Compiled Unit
  | [] => .ok ()
  | part :: rest => do
      validatePart catalog part
      validateScalarCatalog catalog rest

-- `Compiler::new`; `resolved` holds the bindings seen so far.
def newCompiler : List SqlBinding → List SqlBinding → Compiled (List SqlBinding)
  | [], resolved => .ok resolved
  | binding :: rest, resolved =>
      if binding.inputAlias.isEmpty ∨ binding.attributeName.isEmpty then .error (.emptyIdentifier binding.bindingId)
      else if resolved.any fun entry => decide (entry.bindingId = binding.bindingId) then
        .error (.duplicateBinding binding.bindingId)
      else newCompiler rest (resolved ++ [binding])

def compileScalarExpression (catalog : Catalog) (expression : ScalarExpr) (bindings : List SqlBinding) :
    Compiled String := do
  let resolved ← newCompiler bindings []
  validateScalarCatalog catalog expression.visit
  compileScoped catalog resolved [] expression

end Shiba.Planner
