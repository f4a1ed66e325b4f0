import Shiba.DecimalText

set_option autoImplicit false

namespace Shiba.Planner

structure LoweringError where
  capability : String
  node : Option String
  detail : String
deriving DecidableEq, Repr

inductive CoercionForm where
  | explicitCall
  | explicitCast
  | implicitCast
  | sqlSyntax
deriving DecidableEq, Repr

-- A LIMIT or OFFSET expression of the analyzed query. Each node has its result's type.
inductive LimitNode (Datum : Type) where
  | constant (type : Oid) (value : Option Datum)
  | relabelType (argument : LimitNode Datum) (type : Oid)
  | coerceViaIo (argument : LimitNode Datum) (type : Oid)
  | coerceToDomain (argument : LimitNode Datum) (type : Oid)
  | funcExpr (function : Oid) (type : Oid) (format : CoercionForm) (arguments : List (LimitNode Datum))
  | other (tag : String) (type : Oid)

def int8Oid : Oid := 20

def bitOid : Oid := 1560

namespace LimitNode

variable {Datum : Type}

def type : LimitNode Datum → Oid
  | .constant type _ | .relabelType _ type | .coerceViaIo _ type | .coerceToDomain _ type | .funcExpr _ type _ _
  | .other _ type => type

def tag : LimitNode Datum → String
  | .constant _ _ => "T_Const"
  | .relabelType _ _ => "T_RelabelType"
  | .coerceViaIo _ _ => "T_CoerceViaIO"
  | .coerceToDomain _ _ => "T_CoerceToDomain"
  | .funcExpr _ _ _ _ => "T_FuncExpr"
  | .other tag _ => tag

-- The conversions that the folding skips, each with its argument.
def skipped : LimitNode Datum → List (LimitNode Datum × LimitNode Datum)
  | .relabelType argument type => (.relabelType argument type, argument) :: skipped argument
  | .coerceViaIo argument type => (.coerceViaIo argument type, argument) :: skipped argument
  | .coerceToDomain argument type => (.coerceToDomain argument type, argument) :: skipped argument
  | .funcExpr function type format [argument] =>
      if format = .explicitCast ∨ format = .implicitCast then
        (.funcExpr function type format [argument], argument) :: skipped argument
      else
        []
  | _ => []

end LimitNode

def unsupported {Datum : Type} (capability : String) (node : LimitNode Datum) (detail : String) : LoweringError :=
  ⟨capability, some node.tag, detail⟩

-- bigint's output function.
def int8out (value : Int) : String := String.ofList (numericOut (.finite value 0))

-- What PostgreSQL knows of types and functions. `input` is called on NULL too, as
-- a domain's input function is; `elsewhere` evaluates what is no chain of casts.
structure CastCatalog (Datum : Type) where
  output : Oid → Datum → String
  input : Oid → Option String → Except Fault (Option Datum)
  checkDomain : Oid → Option Datum → Except Fault Unit
  call : Oid → Option Datum → Except Fault (Option Datum)
  elsewhere : LimitNode Datum → Except Fault (Option Datum)
  bigint : Datum → Int
  bigintOut : ∀ datum, output int8Oid datum = int8out (bigint datum)

namespace CastCatalog

variable {Datum : Type} (catalog : CastCatalog Datum)

-- PostgreSQL's evaluation of the expression.
def evaluate : LimitNode Datum → Except Fault (Option Datum)
  | .constant _ value => .ok value
  | .relabelType argument _ => evaluate argument
  | .coerceViaIo argument type => do
      let value ← evaluate argument
      catalog.input type (value.map (catalog.output argument.type))
  | .coerceToDomain argument type => do
      let value ← evaluate argument
      catalog.checkDomain type value
      return value
  | .funcExpr function _ _ [argument] => do
      let value ← evaluate argument
      catalog.call function value
  | node => catalog.elsewhere node

-- The constant's text is read, whatever the casts around it would make of it.
def integerConstant (capability : String) : LimitNode Datum → Except LoweringError (Option Nat)
  | .relabelType argument _ => integerConstant capability argument
  | .coerceViaIo argument _ => integerConstant capability argument
  | .coerceToDomain argument _ => integerConstant capability argument
  | .funcExpr function type format arguments =>
      if format = .explicitCast ∨ format = .implicitCast then
        match arguments with
        | [argument] => integerConstant capability argument
        | arguments =>
            .error (unsupported capability (.funcExpr function type format arguments)
              "LIMIT/OFFSET cast does not have one argument")
      else
        .error (unsupported capability (.funcExpr function type format arguments) "LIMIT/OFFSET function is not a cast")
  | .constant type value =>
      match value with
      | none => .ok none
      | some datum =>
          match parseU64 (catalog.output type datum) with
          | some number => .ok (some number)
          | none =>
              .error (unsupported capability (.constant type value)
                s!"LIMIT/OFFSET value {(catalog.output type datum).quote} is not a nonnegative integer")
  | .other tag type =>
      let node : LimitNode Datum := .other tag type
      .error (unsupported capability node "LIMIT/OFFSET must be a nonnegative integer constant")

-- A query without the clause has a null node.
def optionalConstant (capability : String) : Option (LimitNode Datum) → Except LoweringError (Option Nat)
  | none => .ok none
  | some node => catalog.integerConstant capability node

-- The bounds of the stage that lower_topn adds, where it adds one.
def topnBounds (hasOrder : Bool) (limitCount limitOffset : Option (LimitNode Datum)) :
    Except LoweringError (Option (Nat × Nat)) := do
  let limit ← catalog.optionalConstant "topn.limit" limitCount
  let offset ← catalog.optionalConstant "topn.offset" limitOffset
  let offset := offset.getD 0
  if !hasOrder && limit.isNone && offset == 0 then
    .ok none
  else if !hasOrder then
    .error ⟨"topn.order_by", some "T_Query", "LIMIT/OFFSET without ORDER BY has no deterministic maintained row set"⟩
  else
    match limit with
    | none =>
        .error ⟨"topn.limit", some "T_List", "ORDER BY without a finite LIMIT has no relational effect in a sink table"⟩
    | some limit => .ok (some (limit, offset))

-- The integer that a value of the type prints as.
def denotes (type : Oid) (datum : Datum) : Option Nat :=
  parseU64 (catalog.output type datum)

def Agrees (capability : String) (node : LimitNode Datum) : Prop :=
  (∀ number, catalog.integerConstant capability node = .ok (some number) →
    ∃ datum, catalog.evaluate node = .ok (some datum) ∧ catalog.denotes node.type datum = some number) ∧
  (catalog.integerConstant capability node = .ok none → catalog.evaluate node = .ok none)

-- The conversion evaluates where its argument does: NULL to NULL, and what prints as
-- an integer to what prints as the same integer.
def Keeps (node argument : LimitNode Datum) : Prop :=
  (catalog.evaluate argument = .ok none → catalog.evaluate node = .ok none) ∧
  (∀ datum number, catalog.evaluate argument = .ok (some datum) → catalog.denotes argument.type datum = some number →
    ∃ converted, catalog.evaluate node = .ok (some converted) ∧ catalog.denotes node.type converted = some number)

-- Casts over a constant that is NULL or prints as an unsigned integer.
def Foldable : LimitNode Datum → Prop
  | .relabelType argument _ => Foldable argument
  | .coerceViaIo argument _ => Foldable argument
  | .coerceToDomain argument _ => Foldable argument
  | .funcExpr _ _ format [argument] => (format = .explicitCast ∨ format = .implicitCast) ∧ Foldable argument
  | .constant type value => ∀ datum, value = some datum → (catalog.denotes type datum).isSome = true
  | _ => False

def Kept (node : LimitNode Datum) : Prop :=
  catalog.Foldable node → ∀ step ∈ node.skipped, catalog.Keeps step.1 step.2

-- The bounds that PostgreSQL evaluates: NULL is no limit, and offset zero.
def bigintValue : Option (LimitNode Datum) → Except Fault (Option Int)
  | none => .ok none
  | some node => do
      let value ← catalog.evaluate node
      return value.map catalog.bigint

def queryBounds (limitCount limitOffset : Option (LimitNode Datum)) : Except Fault (Option Int × Int) := do
  let limit ← catalog.bigintValue limitCount
  let offset ← catalog.bigintValue limitOffset
  return (limit, offset.getD 0)

end CastCatalog

variable {Datum : Type} (catalog : CastCatalog Datum)

theorem lowered_bind_ok {α β : Type} (value : Except LoweringError α) (next : α → Except LoweringError β)
    (result : β) :
    (value >>= next) = .ok result ↔ ∃ input, value = .ok input ∧ next input = .ok result := by
  cases value <;> simp [bind, Except.bind]

theorem bigint_denotes (datum : Datum) (number : Nat) (same : catalog.denotes int8Oid datum = some number) :
    catalog.bigint datum = number := by
  rw [CastCatalog.denotes, catalog.bigintOut, int8out, parse_u64_out] at same
  exact (Numeric.finite.inj same.1).1

-- An expression is what the folding reads, or a conversion of an argument that it skips.
theorem chain_induction {motive : LimitNode Datum → Prop} (plain : ∀ node, node.skipped = [] → motive node)
    (conversion : ∀ node argument, node.skipped = (node, argument) :: argument.skipped → motive argument → motive node)
    (node : LimitNode Datum) : motive node := by
  fun_induction LimitNode.skipped node with
  | case1 argument type kept => exact conversion _ argument rfl kept
  | case2 argument type kept => exact conversion _ argument rfl kept
  | case3 argument type kept => exact conversion _ argument rfl kept
  | case4 function type format argument cast kept =>
      apply conversion _ argument _ kept
      rw [LimitNode.skipped, if_pos cast]
  | case5 function type format argument other =>
      apply plain
      rw [LimitNode.skipped, if_neg other]
  | case6 node relabel io domain function =>
      apply plain
      rw [LimitNode.skipped]
      · exact relabel
      · exact io
      · exact domain
      · exact function

section

variable (capability : String)

-- A skipped conversion folds as its argument does.
theorem folds_argument {node argument : LimitNode Datum} (skips : node.skipped = (node, argument) :: argument.skipped) :
    catalog.integerConstant capability node = catalog.integerConstant capability argument ∧
      (catalog.Foldable node ↔ catalog.Foldable argument) := by
  fun_cases LimitNode.skipped node
  all_goals simp_all [LimitNode.skipped, CastCatalog.integerConstant, CastCatalog.Foldable]

theorem fold_constant (type : Oid) (datum : Datum) (result : Option Nat) :
    catalog.integerConstant capability (.constant type (some datum)) = .ok result ↔
      ∃ number, catalog.denotes type datum = some number ∧ result = some number := by
  rw [CastCatalog.integerConstant, CastCatalog.denotes]
  cases parseU64 (catalog.output type datum) with
  | none => simp
  | some number =>
      constructor
      · intro folded
        exact ⟨number, rfl, (Except.ok.inj folded).symm⟩
      · intro folded
        obtain ⟨other, same, rfl⟩ := folded
        rw [Option.some.inj same]

variable (node : LimitNode Datum)

theorem fold_refused (plain : node.skipped = []) (other : ∀ type value, node ≠ .constant type value) :
    (∀ result, catalog.integerConstant capability node ≠ .ok result) ∧ ¬catalog.Foldable node := by
  cases node with
  | constant type value => exact absurd rfl (other type value)
  | relabelType argument type => cases plain
  | coerceViaIo argument type => cases plain
  | coerceToDomain argument type => cases plain
  | funcExpr function type format arguments =>
      by_cases cast : format = .explicitCast ∨ format = .implicitCast
      · have several : ∀ argument, arguments ≠ [argument] := by
          intro argument single
          rw [single, LimitNode.skipped, if_pos cast] at plain
          cases plain
        constructor
        · intro result folded
          unfold CastCatalog.integerConstant at folded
          rw [if_pos cast] at folded
          split at folded
          · rename_i argument
            exact several argument rfl
          · cases folded
        · intro foldable
          unfold CastCatalog.Foldable at foldable
          split at foldable
          all_goals simp_all
      · constructor
        · intro result folded
          unfold CastCatalog.integerConstant at folded
          rw [if_neg cast] at folded
          cases folded
        · intro foldable
          unfold CastCatalog.Foldable at foldable
          split at foldable
          all_goals simp_all
  | other tag type =>
      constructor
      · intro result folded
        cases folded
      · intro foldable
        exact foldable

-- What is read without a conversion is a constant, and its value is what it prints.
theorem plain_agrees (plain : node.skipped = []) :
    catalog.Agrees capability node := by
  by_cases constant : ∃ type value, node = .constant type value
  · obtain ⟨type, value, rfl⟩ := constant
    cases value with
    | none =>
        constructor
        · intro number folded
          cases folded
        · intro _
          rfl
    | some datum =>
        constructor
        · intro number folded
          obtain ⟨read, denoted, same⟩ := (fold_constant catalog capability type datum _).mp folded
          rw [Option.some.inj same]
          exact ⟨datum, rfl, denoted⟩
        · intro folded
          obtain ⟨read, _, same⟩ := (fold_constant catalog capability type datum _).mp folded
          cases same
  · obtain ⟨refused, _⟩ :=
      fold_refused catalog capability node plain fun type value same => constant ⟨type, value, same⟩
    exact ⟨fun number folded => absurd folded (refused _), fun folded => absurd folded (refused _)⟩

theorem foldable_folds :
    catalog.Foldable node ↔ ∃ result, catalog.integerConstant capability node = .ok result := by
  induction node using chain_induction with
  | plain node plain =>
      by_cases constant : ∃ type value, node = .constant type value
      · obtain ⟨type, value, rfl⟩ := constant
        cases value with
        | none =>
            constructor
            · intro _
              exact ⟨none, rfl⟩
            · intro _ datum wrong
              cases wrong
        | some datum =>
            constructor
            · intro foldable
              obtain ⟨number, denoted⟩ := Option.isSome_iff_exists.mp (foldable datum rfl)
              exact ⟨some number, (fold_constant catalog capability type datum _).mpr ⟨number, denoted, rfl⟩⟩
            · intro folded other same
              obtain ⟨result, folded⟩ := folded
              obtain ⟨number, denoted, _⟩ := (fold_constant catalog capability type datum _).mp folded
              rw [← Option.some.inj same, denoted]
              rfl
      · obtain ⟨refused, unfoldable⟩ :=
          fold_refused catalog capability node plain fun type value same => constant ⟨type, value, same⟩
        constructor
        · intro foldable
          exact absurd foldable unfoldable
        · intro folded
          obtain ⟨result, folded⟩ := folded
          exact absurd folded (refused result)
  | conversion node argument skips kept =>
      obtain ⟨same, foldable⟩ := folds_argument catalog capability skips
      rw [foldable, same, kept]

-- Where the argument is folded right, the conversion is iff it keeps the value.
theorem conversion_agrees {capability : String} {node argument : LimitNode Datum}
    (skips : node.skipped = (node, argument) :: argument.skipped) (foldable : catalog.Foldable node)
    (agrees : catalog.Agrees capability argument) : catalog.Agrees capability node ↔ catalog.Keeps node argument := by
  obtain ⟨same, _⟩ := folds_argument catalog capability skips
  obtain ⟨result, folded⟩ := (foldable_folds catalog capability node).mp foldable
  have read := same.symm.trans folded
  rw [CastCatalog.Agrees, folded]
  cases result with
  | none =>
      have value := agrees.2 read
      constructor
      · intro right
        refine ⟨fun _ => right.2 rfl, ?_⟩
        intro datum number other
        rw [value] at other
        cases other
      · intro keeps
        refine ⟨?_, fun _ => keeps.1 value⟩
        intro number wrong
        cases wrong
  | some number =>
      obtain ⟨datum, value, denoted⟩ := agrees.1 number read
      constructor
      · intro right
        constructor
        · intro other
          rw [value] at other
          cases other
        · intro second other evaluated printed
          rw [value] at evaluated
          cases evaluated
          rw [denoted] at printed
          cases printed
          exact right.1 number rfl
      · intro keeps
        constructor
        · intro other found
          cases found
          exact keeps.2 datum number value denoted
        · intro wrong
          cases wrong

-- The expression, and every argument that the folding reads for it.
def LimitNode.read (node : LimitNode Datum) : List (LimitNode Datum) := node :: node.skipped.map Prod.snd

theorem read_agrees :
    (∀ call ∈ node.read, catalog.Agrees capability call) ↔ catalog.Kept node := by
  induction node using chain_induction with
  | plain node plain =>
      rw [LimitNode.read, CastCatalog.Kept, plain]
      constructor
      · intro _ _ step member
        cases member
      · intro _ call member
        rw [List.mem_singleton.mp member]
        exact plain_agrees catalog capability node plain
  | conversion node argument skips kept =>
      obtain ⟨same, foldable⟩ := folds_argument catalog capability skips
      have split : (∀ call ∈ node.read, catalog.Agrees capability call) ↔
          catalog.Agrees capability node ∧ ∀ call ∈ argument.read, catalog.Agrees capability call := by
        rw [LimitNode.read, skips, List.map_cons, List.forall_mem_cons, LimitNode.read]
      rw [split, kept, CastCatalog.Kept, CastCatalog.Kept, foldable, skips]
      by_cases folds : catalog.Foldable argument
      · have inner (argumentKept : catalog.Kept argument) : catalog.Agrees capability argument :=
          kept.mpr argumentKept argument List.mem_cons_self
        constructor
        · intro ⟨agrees, later⟩ _
          rw [List.forall_mem_cons]
          exact ⟨(conversion_agrees catalog skips (foldable.mpr folds) (inner later)).mp agrees, later folds⟩
        · intro keeps
          obtain ⟨first, later⟩ := List.forall_mem_cons.mp (keeps folds)
          refine ⟨?_, fun _ => later⟩
          apply (conversion_agrees catalog skips (foldable.mpr folds) (inner fun _ => later)).mpr
          exact first
      · have refused : ∀ result, catalog.integerConstant capability node ≠ .ok result := by
          intro result folded
          exact folds (foldable.mp ((foldable_folds catalog capability node).mpr ⟨result, folded⟩))
        constructor
        · intro _ wrong
          exact absurd wrong folds
        · intro _
          refine ⟨⟨fun number folded => absurd folded (refused _), fun folded => absurd folded (refused _)⟩, ?_⟩
          intro wrong
          exact absurd wrong folds

end

theorem bigint_folded {capability : String} {clause : Option (LimitNode Datum)} {result : Option Nat}
    (kept : ∀ node, clause = some node → node.type = int8Oid ∧ catalog.Kept node)
    (folded : catalog.optionalConstant capability clause = .ok result) :
    catalog.bigintValue clause = .ok (result.map Int.ofNat) := by
  cases clause with
  | none =>
      cases folded
      rfl
  | some node =>
      obtain ⟨bigint, kept⟩ := kept node rfl
      have agrees : catalog.Agrees capability node :=
        (read_agrees catalog capability node).mpr kept node List.mem_cons_self
      cases result with
      | none =>
          rw [CastCatalog.bigintValue, agrees.2 folded]
          rfl
      | some number =>
          obtain ⟨datum, value, denoted⟩ := agrees.1 number folded
          rw [bigint] at denoted
          rw [CastCatalog.bigintValue, value, ok_bind, Option.map_some, bigint_denotes catalog datum number denoted]
          rfl

theorem bounds_folded {hasOrder : Bool} {limitCount limitOffset : Option (LimitNode Datum)} {bounds : Option (Nat × Nat)}
    (kept : ∀ node, limitCount = some node ∨ limitOffset = some node → node.type = int8Oid ∧ catalog.Kept node)
    (built : catalog.topnBounds hasOrder limitCount limitOffset = .ok bounds) :
    catalog.queryBounds limitCount limitOffset =
      .ok (bounds.map fun bounds => Int.ofNat bounds.1, (bounds.map fun bounds => Int.ofNat bounds.2).getD 0) := by
  obtain ⟨limit, limitRead, built⟩ := (lowered_bind_ok _ _ _).mp built
  obtain ⟨offset, offsetRead, built⟩ := (lowered_bind_ok _ _ _).mp built
  have limitValue := bigint_folded catalog (fun node same => kept node (Or.inl same)) limitRead
  have offsetValue := bigint_folded catalog (fun node same => kept node (Or.inr same)) offsetRead
  rw [CastCatalog.queryBounds, limitValue, ok_bind, offsetValue, ok_bind]
  have offsetDefault : (offset.map Int.ofNat).getD 0 = Int.ofNat (offset.getD 0) := by
    cases offset with
    | none => rfl
    | some offset => rfl
  rw [offsetDefault]
  simp only at built
  by_cases unchanged : (!hasOrder && limit.isNone && offset.getD 0 == 0) = true
  · rw [if_pos unchanged] at built
    cases built
    simp only [Bool.and_eq_true, beq_iff_eq, Option.isNone_iff_eq_none] at unchanged
    obtain ⟨⟨_, unlimited⟩, start⟩ := unchanged
    rw [unlimited, start]
    rfl
  · rw [if_neg unchanged] at built
    by_cases unordered : (!hasOrder) = true
    · rw [if_pos unordered] at built
      cases built
    · rw [if_neg unordered] at built
      cases limit with
      | none => cases built
      | some limit =>
          cases built
          rfl

-- The folding of an expression, and of every argument that it reads on the way, is
-- PostgreSQL's value iff no skipped conversion changes an integer constant.
theorem folding_agrees (capability : String) :
    (∀ node, (∀ call ∈ node.read, catalog.Agrees capability call) ↔ catalog.Kept node) ∧
      (∀ node argument, node.skipped = (node, argument) :: argument.skipped → catalog.Foldable node →
        catalog.Agrees capability argument → (catalog.Agrees capability node ↔ catalog.Keeps node argument)) ∧
      (∀ clause result, (∀ node, clause = some node → node.type = int8Oid ∧ catalog.Kept node) →
        catalog.optionalConstant capability clause = .ok result →
        catalog.bigintValue clause = .ok (result.map Int.ofNat)) ∧
      (∀ hasOrder limitCount limitOffset bounds,
        (∀ node, limitCount = some node ∨ limitOffset = some node → node.type = int8Oid ∧ catalog.Kept node) →
        catalog.topnBounds hasOrder limitCount limitOffset = .ok bounds →
        catalog.queryBounds limitCount limitOffset =
          .ok (bounds.map fun bounds => Int.ofNat bounds.1, (bounds.map fun bounds => Int.ofNat bounds.2).getD 0)) := by
  refine ⟨fun node => read_agrees catalog capability node, ?_, ?_, ?_⟩
  · intro node argument skips foldable agrees
    exact conversion_agrees catalog skips foldable agrees
  · intro clause result kept folded
    exact bigint_folded catalog kept folded
  · intro hasOrder limitCount limitOffset bounds kept built
    exact bounds_folded catalog kept built

inductive CastDatum where
  | bits (digits : List Bool)
  | bigint (value : Int)
deriving DecidableEq, Repr

def CastDatum.toInt : CastDatum → Int
  | .bits digits => (BitVec.ofNat 64 (digits.foldl (fun value digit => 2 * value + digit.toNat) 0)).toInt
  | .bigint value => value

def bitOut : CastDatum → String
  | .bits digits => String.ofList (digits.map fun digit => if digit then '1' else '0')
  | .bigint value => int8out value

def castOut (type : Oid) (datum : CastDatum) : String :=
  if type = int8Oid then int8out datum.toInt else bitOut datum

theorem cast_out_bigint (datum : CastDatum) : castOut int8Oid datum = int8out datum.toInt := if_pos rfl

def bitToBigintOid : Oid := 2076

-- bittoint8 is strict, and refuses more
def bitToBigint : Option CastDatum → Except Fault (Option CastDatum)
  | some (.bits digits) =>
      if digits.length ≤ 64 then
        .ok (some (.bigint (CastDatum.bits digits).toInt))
      else
        .error (.raised "22003" "bigint out of range")
  | _ => .ok none

def bitCatalog : CastCatalog CastDatum :=
  ⟨castOut, fun _ _ => .ok none, fun _ _ => .ok (), fun _ value => bitToBigint value, fun _ => .ok none, CastDatum.toInt,
    cast_out_bigint⟩

-- LIMIT B'101'::bigint.
def bitLimit : LimitNode CastDatum :=
  .funcExpr bitToBigintOid int8Oid .explicitCast [.constant bitOid (some (.bits [true, false, true]))]

theorem bit_limit_folded :
    bitCatalog.topnBounds true (some bitLimit) none = .ok (some (101, 0)) ∧
      bitCatalog.queryBounds (some bitLimit) none = .ok (some 5, 0) ∧
      ¬∀ (node : LimitNode CastDatum) (number : Nat), node.type = int8Oid →
        bitCatalog.integerConstant "topn.limit" node = .ok (some number) →
        bitCatalog.bigintValue (some node) = .ok (some (Int.ofNat number)) := by
  have folded : bitCatalog.integerConstant "topn.limit" bitLimit = .ok (some 101) := by decide
  have value : bitCatalog.bigintValue (some bitLimit) = .ok (some 5) := by decide
  refine ⟨by decide, by decide, ?_⟩
  intro claimed
  have wrong := claimed bitLimit 101 rfl folded
  rw [value] at wrong
  cases wrong

end Shiba.Planner
