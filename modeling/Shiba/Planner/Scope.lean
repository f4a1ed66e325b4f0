import Shiba.Planner.Validate
import Shiba.Planner.ScalarSql

set_option autoImplicit false

namespace Shiba.Planner

-- What the compiler needs of an expression: `known` bindings it resolves, and
-- `depth` simple CASE arms around it.
mutual
def WellScoped (known : BindingId → Prop) (depth : Nat) : ScalarExpr → Prop
  | .input binding => known binding
  | .constant _ _ => True
  | .call _ args _ => AllScoped known depth args
  | .operator _ args _ => AllScoped known depth args
  | .bool op args => args ≠ [] ∧ (op = .not → args.length = 1) ∧ AllScoped known depth args
  | .coalesce args _ => args ≠ [] ∧ AllScoped known depth args
  | .distinct _ left right _ => WellScoped known depth left ∧ WellScoped known depth right
  | .nullIf _ left right _ => WellScoped known depth left ∧ WellScoped known depth right
  | .scalarArrayOperator _ left right _ _ => WellScoped known depth left ∧ WellScoped known depth right
  | .booleanTest arg _ => WellScoped known depth arg
  | .nullTest arg _ => WellScoped known depth arg
  | .relabel arg _ => WellScoped known depth arg
  | .coerceViaIo arg _ => WellScoped known depth arg
  | .coerceToDomain arg _ => WellScoped known depth arg
  | .collate arg _ _ => WellScoped known depth arg
  | .caseExpr none arms elseExpr _ =>
      arms ≠ [] ∧ ArmsScoped known depth depth arms ∧ WellScoped known depth elseExpr
  | .caseExpr (some operand) arms elseExpr _ =>
      arms ≠ [] ∧ WellScoped known depth operand ∧ ArmsScoped known depth (depth + 1) arms ∧
        WellScoped known depth elseExpr
  | .caseTest _ => 0 < depth

def AllScoped (known : BindingId → Prop) (depth : Nat) : List ScalarExpr → Prop
  | [] => True
  | arg :: rest => WellScoped known depth arg ∧ AllScoped known depth rest

def ArmsScoped (known : BindingId → Prop) (depth armDepth : Nat) : List CaseWhen → Prop
  | [] => True
  | .mk condition result :: rest =>
      WellScoped known armDepth condition ∧ WellScoped known depth result ∧ ArmsScoped known depth armDepth rest
end

def Checked (bindings : TypedBindings) (nodeId : String) (parts : List ScalarExpr) : Prop :=
  ∀ part ∈ parts, partError bindings nodeId part = none

theorem checked_cons (bindings : TypedBindings) (nodeId : String) (part : ScalarExpr) (parts : List ScalarExpr) :
    Checked bindings nodeId (part :: parts) ↔ partError bindings nodeId part = none ∧ Checked bindings nodeId parts := by
  simp [Checked]

theorem checked_append (bindings : TypedBindings) (nodeId : String) (a b : List ScalarExpr) :
    Checked bindings nodeId (a ++ b) ↔ Checked bindings nodeId a ∧ Checked bindings nodeId b := by
  simp only [Checked, List.mem_append, or_imp, forall_and]

theorem nonempty_of_error (args : List ScalarExpr) (bad : Prop) [Decidable bad] (message : String)
    (fine : (if args.isEmpty ∨ bad then some message else none) = none) : args ≠ [] ∧ ¬ bad := by
  by_cases wrong : args.isEmpty ∨ bad
  · rw [if_pos wrong] at fine
    cases fine
  · obtain ⟨nonempty, right⟩ := not_or.mp wrong
    refine ⟨?_, right⟩
    intro empty
    exact nonempty (by simp [empty])

theorem both_ok {left right : Except Fault Unit} (done : (do left; right) = .ok ()) : left = .ok () ∧ right = .ok () := by
  obtain ⟨_, first, second⟩ := bind_ok_iff.mp done
  exact ⟨first, second⟩

mutual
theorem scope_of_checked (bindings : TypedBindings) (nodeId : String) (operands : List SlotType) (expr : ScalarExpr)
    (checked : Checked bindings nodeId expr.visit)
    (valid : validateCaseTestScope bindings nodeId operands expr = .ok ()) :
    WellScoped (fun binding => (bindings.get binding).isSome = true) operands.length expr := by
  cases expr with
  | input binding =>
      have known := checked (.input binding) (by simp [ScalarExpr.visit])
      simp only [partError] at known
      by_cases missing : (bindings.get binding).isNone
      · simp [missing] at known
      · simpa [WellScoped, Option.isSome_iff_ne_none] using missing
  | constant type value => trivial
  | call oid args type | operator oid args type =>
      rw [ScalarExpr.visit, checked_cons] at checked
      rw [validateCaseTestScope] at valid
      exact all_of_checked checked.2 valid
  | bool op args =>
      rw [ScalarExpr.visit, checked_cons] at checked
      rw [validateCaseTestScope] at valid
      obtain ⟨nonempty, arity⟩ := nonempty_of_error _ _ _ checked.1
      refine ⟨nonempty, ?_, all_of_checked checked.2 valid⟩
      intro negation
      by_contra wrong
      exact arity ⟨negation, wrong⟩
  | coalesce args type =>
      rw [ScalarExpr.visit, checked_cons] at checked
      rw [validateCaseTestScope] at valid
      exact ⟨(nonempty_of_error _ _ _ checked.1).1, all_of_checked checked.2 valid⟩
  | distinct oid left right type | nullIf oid left right type | scalarArrayOperator oid left right useOr type =>
      rw [ScalarExpr.visit, checked_cons, checked_append] at checked
      rw [validateCaseTestScope] at valid
      have both := both_ok valid
      exact ⟨scope_of_checked bindings nodeId operands left checked.2.1 both.1,
        scope_of_checked bindings nodeId operands right checked.2.2 both.2⟩
  | booleanTest arg test | nullTest arg isNot | relabel arg type | coerceViaIo arg type | coerceToDomain arg type
  | collate arg oid type =>
      rw [ScalarExpr.visit, checked_cons] at checked
      rw [validateCaseTestScope] at valid
      exact scope_of_checked bindings nodeId operands arg checked.2 valid
  | caseTest type =>
      rw [validateCaseTestScope] at valid
      cases operands with
      | nil => cases valid
      | cons operand outer => exact Nat.succ_pos _
  | caseExpr operand arms elseExpr type =>
      cases operand with
      | none =>
          rw [ScalarExpr.visit, checked_cons, checked_append] at checked
          rw [validateCaseTestScope] at valid
          have both := both_ok valid
          refine ⟨?_, arms_of_checked checked.2.1 both.1,
            scope_of_checked bindings nodeId operands elseExpr checked.2.2 both.2⟩
          intro empty
          simp [partError, empty] at checked
      | some operand =>
          rw [ScalarExpr.visit, checked_cons, checked_append, checked_append] at checked
          rw [validateCaseTestScope] at valid
          obtain ⟨operandScoped, rest⟩ := both_ok valid
          cases typed : expressionType bindings operand with
          | none =>
              rw [typed] at rest
              cases rest
          | some operandType =>
              rw [typed] at rest
              have both := both_ok rest
              have armsScoped := arms_of_checked checked.2.2.1 both.1
              rw [List.length_append] at armsScoped
              refine ⟨?_, scope_of_checked bindings nodeId operands operand checked.2.1 operandScoped, armsScoped,
                scope_of_checked bindings nodeId operands elseExpr checked.2.2.2 both.2⟩
              intro empty
              simp [partError, empty] at checked

theorem all_of_checked {bindings : TypedBindings} {nodeId : String} {operands : List SlotType} {args : List ScalarExpr}
    (checked : Checked bindings nodeId (visitAll args))
    (valid : validateScopeAll bindings nodeId operands args = .ok ()) :
    AllScoped (fun binding => (bindings.get binding).isSome = true) operands.length args := by
  cases args with
  | nil => trivial
  | cons arg rest =>
      rw [visitAll, checked_append] at checked
      rw [validateScopeAll] at valid
      have both := both_ok valid
      exact ⟨scope_of_checked bindings nodeId operands arg checked.1 both.1, all_of_checked checked.2 both.2⟩

theorem arms_of_checked {bindings : TypedBindings} {nodeId : String} {operands armOperands : List SlotType}
    {arms : List CaseWhen} (checked : Checked bindings nodeId (visitArms arms))
    (valid : validateScopeArms bindings nodeId operands armOperands arms = .ok ()) :
    ArmsScoped (fun binding => (bindings.get binding).isSome = true) operands.length armOperands.length arms := by
  cases arms with
  | nil => trivial
  | cons arm rest =>
      cases arm with
      | mk condition result =>
          rw [visitArms, checked_append, checked_append] at checked
          rw [validateScopeArms] at valid
          obtain ⟨conditionScoped, later⟩ := both_ok valid
          have both := both_ok later
          exact ⟨scope_of_checked bindings nodeId armOperands condition checked.1 conditionScoped,
            scope_of_checked bindings nodeId operands result checked.2.1 both.1,
            arms_of_checked checked.2.2 both.2⟩
end

theorem validated_scope (bindings : TypedBindings) (nodeId : String) (expr : ScalarExpr)
    (valid : validateScalarExpr bindings nodeId expr = .ok ()) :
    WellScoped (fun binding => (bindings.get binding).isSome = true) 0 expr := by
  unfold validateScalarExpr at valid
  cases found : expr.visit.findSome? (partError bindings nodeId) with
  | some error =>
      rw [found] at valid
      cases valid
  | none =>
      rw [found] at valid
      exact scope_of_checked bindings nodeId [] expr (List.findSome?_eq_none_iff.mp found) valid

-- The catalogs alone can make the compilation fail.
def CatalogOnly {α : Type} (result : Compiled α) : Prop :=
  ∀ fault, result = .error fault → ∃ message, fault = .catalog message

theorem catalog_only_ok {α : Type} (value : α) : CatalogOnly (.ok value : Compiled α) := by
  intro fault failed
  cases failed

theorem catalog_only_arity (oid : Oid) : CatalogOnly (.error (invalidArity oid) : Compiled String) := by
  intro fault failed
  exact ⟨_, (Except.error.inj failed).symm⟩

theorem catalog_only_resolve {α : Type} (found : Except String α) : CatalogOnly (resolve found) := by
  intro fault failed
  cases found with
  | ok value => cases failed
  | error message => exact ⟨message, (Except.error.inj failed).symm⟩

theorem catalog_only_bind {α β : Type} {result : Compiled α} {next : α → Compiled β} (first : CatalogOnly result)
    (then_ : ∀ value, CatalogOnly (next value)) : CatalogOnly (result >>= next) := by
  cases result with
  | ok value => exact then_ value
  | error fault =>
      intro other failed
      cases failed
      exact first fault rfl

theorem catalog_only_map {α β : Type} {result : Compiled α} {finish : α → β} (first : CatalogOnly result) :
    CatalogOnly (do return finish (← result)) := by
  apply catalog_only_bind first
  intro value
  exact catalog_only_ok _

theorem catalog_only_constant (catalog : Catalog) (type : SlotType) (value : Option String) :
    CatalogOnly (constantSql catalog type value) :=
  catalog_only_map (catalog_only_resolve _)

theorem catalog_only_binary (catalog : Catalog) (oid : Oid) (role : String) :
    CatalogOnly (binaryOperator catalog oid role) := by
  apply catalog_only_bind (catalog_only_resolve _)
  intro operator
  by_cases binary : operator.kind ≠ 'b'
  · rw [if_pos binary]
    intro fault failed
    exact ⟨_, (Except.error.inj failed).symm⟩
  · rw [if_neg binary]
    exact catalog_only_ok _

theorem compile_all_length {catalog : Catalog} {bindings : List SqlBinding} {operands : List String} (args : List ScalarExpr)
    (compiled : List String) (done : compileAll catalog bindings operands args = .ok compiled) :
    compiled.length = args.length := by
  induction args generalizing compiled with
  | nil =>
      rw [compileAll] at done
      cases done
      rfl
  | cons arg rest ih =>
      rw [compileAll] at done
      cases first : compileScoped catalog bindings operands arg with
      | error fault =>
          rw [first] at done
          cases done
      | ok argSql =>
          cases later : compileAll catalog bindings operands rest with
          | error fault =>
              rw [first, later] at done
              cases done
          | ok restSql =>
              rw [first, later] at done
              cases done
              rw [List.length_cons, List.length_cons, ih restSql later]

theorem bool_sql_ok (op : BoolExprKind) (compiled : List String) (nonempty : compiled.length ≠ 0)
    (single : op = .not → compiled.length = 1) : ∃ sql, boolSql op compiled = .ok sql := by
  cases compiled with
  | nil => exact absurd rfl nonempty
  | cons sql rest =>
      cases op with
      | and => exact ⟨_, rfl⟩
      | or => exact ⟨_, rfl⟩
      | not =>
          have one := single rfl
          cases rest with
          | nil => exact ⟨_, rfl⟩
          | cons other rest => simp at one

theorem catalog_only_bool {catalog : Catalog} {bindings : List SqlBinding} {operands : List String} {op : BoolExprKind}
    {args : List ScalarExpr} (nonempty : args ≠ []) (single : op = .not → args.length = 1)
    (all : CatalogOnly (compileAll catalog bindings operands args)) :
    CatalogOnly (compileAll catalog bindings operands args >>= boolSql op) := by
  cases done : compileAll catalog bindings operands args with
  | error fault =>
      intro other failed
      cases failed
      exact all fault done
  | ok compiled =>
      have same := compile_all_length args compiled done
      obtain ⟨sql, fine⟩ := bool_sql_ok op compiled (by simpa [same] using nonempty) (by rwa [same])
      intro fault failed
      change boolSql op compiled = .error fault at failed
      rw [fine] at failed
      cases failed

def Resolves (bindings : List SqlBinding) (known : BindingId → Prop) : Prop :=
  ∀ binding, known binding → (bindings.find? fun entry => decide (entry.bindingId = binding)).isSome = true

section Compile
variable (catalog : Catalog) (bindings : List SqlBinding) (known : BindingId → Prop)

mutual
theorem compile_only_catalog (resolved : Resolves bindings known) (operands : List String) (expr : ScalarExpr)
    (valid : WellScoped known operands.length expr) : CatalogOnly (compileScoped catalog bindings operands expr) := by
  cases expr with
  | input binding =>
      rw [compileScoped]
      obtain ⟨entry, found⟩ := Option.isSome_iff_exists.mp (resolved binding valid)
      rw [found]
      exact catalog_only_ok _
  | constant type value =>
      rw [compileScoped]
      exact catalog_only_constant catalog type value
  | call oid args type =>
      rw [compileScoped]
      apply catalog_only_bind (catalog_only_resolve _)
      intro function
      exact catalog_only_map (compile_all_only_catalog resolved operands args valid)
  | operator oid args type =>
      match args with
      | [] =>
          rw [compileScoped]
          · exact catalog_only_bind (catalog_only_resolve _) fun operator => catalog_only_arity oid
          · intro left right same
            cases same
          · intro arg same
            cases same
      | [arg] =>
          rw [compileScoped]
          apply catalog_only_bind (catalog_only_resolve _)
          intro operator
          by_cases leftUnary : operator.kind = 'l'
          · rw [if_pos leftUnary]
            exact catalog_only_map (compile_only_catalog resolved operands arg valid.1)
          · rw [if_neg leftUnary]
            by_cases rightUnary : operator.kind = 'r'
            · rw [if_pos rightUnary]
              exact catalog_only_map (compile_only_catalog resolved operands arg valid.1)
            · rw [if_neg rightUnary]
              exact catalog_only_arity oid
      | [left, right] =>
          rw [compileScoped]
          apply catalog_only_bind (catalog_only_resolve _)
          intro operator
          by_cases binary : operator.kind = 'b'
          · rw [if_pos binary]
            apply catalog_only_bind (compile_only_catalog resolved operands left valid.1)
            intro leftSql
            exact catalog_only_map (compile_only_catalog resolved operands right valid.2.1)
          · rw [if_neg binary]
            exact catalog_only_arity oid
      | first :: second :: third :: rest =>
          rw [compileScoped]
          · exact catalog_only_bind (catalog_only_resolve _) fun operator => catalog_only_arity oid
          · intro left right same
            cases same
          · intro arg same
            cases same
  | distinct oid left right type | scalarArrayOperator oid left right useOr type =>
      rw [compileScoped]
      apply catalog_only_bind (catalog_only_binary _ _ _)
      intro operator
      apply catalog_only_bind (compile_only_catalog resolved operands left valid.1)
      intro leftSql
      exact catalog_only_map (compile_only_catalog resolved operands right valid.2)
  | nullIf oid left right type =>
      rw [compileScoped]
      apply catalog_only_bind (catalog_only_binary _ _ _)
      intro operator
      apply catalog_only_bind (catalog_only_resolve _)
      intro typeName
      apply catalog_only_bind (compile_only_catalog resolved operands left valid.1)
      intro leftSql
      exact catalog_only_map (compile_only_catalog resolved operands right valid.2)
  | bool op args =>
      rw [compileScoped]
      exact catalog_only_bool valid.1 valid.2.1 (compile_all_only_catalog resolved operands args valid.2.2)
  | booleanTest arg test | nullTest arg isNot =>
      rw [compileScoped]
      exact catalog_only_map (compile_only_catalog resolved operands arg valid)
  | coalesce args type =>
      rw [compileScoped, if_neg (by simpa using valid.1)]
      exact catalog_only_map (compile_all_only_catalog resolved operands args valid.2)
  | caseTest type =>
      rw [compileScoped]
      cases last : operands.getLast? with
      | none =>
          rw [List.getLast?_eq_none_iff.mp last] at valid
          cases valid
      | some operand => exact catalog_only_ok _
  | relabel arg type | coerceViaIo arg type | coerceToDomain arg type =>
      rw [compileScoped]
      apply catalog_only_bind (compile_only_catalog resolved operands arg valid)
      intro argSql
      exact catalog_only_map (catalog_only_resolve _)
  | collate arg oid type =>
      rw [compileScoped]
      apply catalog_only_bind (catalog_only_resolve _)
      intro collation
      exact catalog_only_map (compile_only_catalog resolved operands arg valid)
  | caseExpr operand arms elseExpr type =>
      cases operand with
      | none =>
          obtain ⟨nonempty, armsValid, elseValid⟩ := valid
          rw [compileScoped, if_neg (by simpa using nonempty)]
          apply catalog_only_bind (compile_arms_only_catalog resolved operands operands arms armsValid)
          intro armsSql
          exact catalog_only_map (compile_only_catalog resolved operands elseExpr elseValid)
      | some operand =>
          obtain ⟨nonempty, operandValid, armsValid, elseValid⟩ := valid
          rw [compileScoped, if_neg (by simpa using nonempty)]
          -- The arms see one operand more, as they did when the scope was checked.
          apply catalog_only_bind (compile_arms_only_catalog resolved operands
            (operands ++ [quoteIdentifier (caseAlias operands.length) ++ ".value"]) arms
            (by rw [List.length_append]; exact armsValid))
          intro armsSql
          apply catalog_only_bind (compile_only_catalog resolved operands elseExpr elseValid)
          intro elseSql
          exact catalog_only_map (compile_only_catalog resolved operands operand operandValid)

theorem compile_all_only_catalog (resolved : Resolves bindings known) (operands : List String) (args : List ScalarExpr)
    (valid : AllScoped known operands.length args) : CatalogOnly (compileAll catalog bindings operands args) := by
  cases args with
  | nil =>
      rw [compileAll]
      exact catalog_only_ok _
  | cons arg rest =>
      rw [compileAll]
      apply catalog_only_bind (compile_only_catalog resolved operands arg valid.1)
      intro argSql
      exact catalog_only_map (compile_all_only_catalog resolved operands rest valid.2)

theorem compile_arms_only_catalog (resolved : Resolves bindings known) (operands armOperands : List String)
    (arms : List CaseWhen) (valid : ArmsScoped known operands.length armOperands.length arms) :
    CatalogOnly (compileArms catalog bindings operands armOperands arms) := by
  cases arms with
  | nil =>
      rw [compileArms]
      exact catalog_only_ok _
  | cons arm rest =>
      cases arm with
      | mk condition result =>
          obtain ⟨conditionValid, resultValid, restValid⟩ := valid
          rw [compileArms]
          apply catalog_only_bind (compile_only_catalog resolved armOperands condition conditionValid)
          intro conditionSql
          apply catalog_only_bind (compile_only_catalog resolved operands result resultValid)
          intro resultSql
          exact catalog_only_map (compile_arms_only_catalog resolved operands armOperands rest restValid)
end

end Compile

theorem catalog_only_type (catalog : Catalog) (type : SlotType) : CatalogOnly (validateType catalog type) := by
  apply catalog_only_bind (catalog_only_resolve _)
  intro name
  by_cases collated : type.collationOid ≠ 0
  · rw [if_pos collated]
    exact catalog_only_map (catalog_only_resolve _)
  · rw [if_neg collated]
    exact catalog_only_ok _

theorem catalog_only_part (catalog : Catalog) (part : ScalarExpr) : CatalogOnly (validatePart catalog part) := by
  have looked {α : Type} (found : Except String α) (type : SlotType) :
      CatalogOnly (do let _ ← resolve found; validateType catalog type) := by
    apply catalog_only_bind (catalog_only_resolve _)
    intro value
    exact catalog_only_type catalog type
  cases part <;> first | exact catalog_only_ok _ | exact catalog_only_type catalog _ | exact looked _ _

theorem catalog_only_parts (catalog : Catalog) (parts : List ScalarExpr) :
    CatalogOnly (validateScalarCatalog catalog parts) := by
  induction parts with
  | nil => exact catalog_only_ok _
  | cons part rest ih =>
      apply catalog_only_bind (catalog_only_part catalog part)
      intro checked
      exact ih

theorem new_compiler_ok (bindings resolved : List SqlBinding)
    (named : ∀ binding ∈ bindings, ¬ (binding.inputAlias.isEmpty ∨ binding.attributeName.isEmpty))
    (distinct : ((resolved ++ bindings).map (·.bindingId)).Nodup) :
    newCompiler bindings resolved = .ok (resolved ++ bindings) := by
  induction bindings generalizing resolved with
  | nil => rw [newCompiler, List.append_nil]
  | cons binding rest ih =>
      have fresh : ¬ (resolved.any fun entry => decide (entry.bindingId = binding.bindingId)) := by
        intro seen
        obtain ⟨entry, member, same⟩ := List.any_eq_true.mp seen
        rw [List.map_append, List.nodup_append] at distinct
        exact distinct.2.2 _ (List.mem_map_of_mem member) _ (List.mem_map_of_mem List.mem_cons_self) (of_decide_eq_true same)
      rw [newCompiler, if_neg (named binding List.mem_cons_self), if_neg fresh, ih, List.append_assoc, List.singleton_append]
      · intro other member
        exact named other (List.mem_cons_of_mem _ member)
      · rwa [List.append_assoc, List.singleton_append]

theorem compile_scalar_only_catalog (catalog : Catalog) (known : BindingId → Prop) (bindings : List SqlBinding)
    (expr : ScalarExpr) (valid : WellScoped known 0 expr)
    (named : ∀ binding ∈ bindings, ¬ (binding.inputAlias.isEmpty ∨ binding.attributeName.isEmpty))
    (distinct : (bindings.map (·.bindingId)).Nodup)
    (resolved : ∀ binding, known binding → binding ∈ bindings.map (·.bindingId)) :
    CatalogOnly (compileScalarExpression catalog expr bindings) := by
  unfold compileScalarExpression
  rw [new_compiler_ok bindings [] named (by simpa using distinct)]
  apply catalog_only_bind (catalog_only_parts _ _)
  intro checked
  refine compile_only_catalog catalog bindings known ?_ [] expr valid
  intro binding member
  obtain ⟨entry, found, same⟩ := List.mem_map.mp (resolved binding member)
  exact List.find?_isSome.mpr ⟨entry, found, decide_eq_true same⟩

end Shiba.Planner
