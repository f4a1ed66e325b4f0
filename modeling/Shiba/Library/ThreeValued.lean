import Mathlib.Tactic

set_option autoImplicit false

namespace ThreeValued

universe u

-- Conditions of SQL whose tests can be unknown. There is no NOT among them.
inductive Predicate (Test : Type u) where
  | test (test : Test)
  | literal (value : Bool)
  | and (left right : Predicate Test)
  | or (left right : Predicate Test)
  | case (condition met other : Predicate Test)

variable {Test : Type u} (value : Test → Option Bool)

def conjunction : Option Bool → Option Bool → Option Bool
  | some true, right => right
  | some false, _ => some false
  | none, some false => some false
  | none, _ => none

def disjunction : Option Bool → Option Bool → Option Bool
  | some false, right => right
  | some true, _ => some true
  | none, some true => some true
  | none, _ => none

-- CASE takes a branch only where its condition is true.
def truth : Predicate Test → Option Bool
  | .test test => value test
  | .literal value => some value
  | .and left right => conjunction (truth left) (truth right)
  | .or left right => disjunction (truth left) (truth right)
  | .case condition met other => if truth condition = some true then truth met else truth other

-- WHERE keeps a row whose condition is true, and drops one whose condition is unknown.
def holds (predicate : Predicate Test) : Bool := truth value predicate == some true

-- parts.join(" AND ") in front of a last condition, and alternatives.join(" OR ").
def joinAnd : List (Predicate Test) → Predicate Test → Predicate Test
  | [], last => last
  | part :: parts, last => .and part (joinAnd parts last)

def joinOr : List (Predicate Test) → Predicate Test
  | [] => .literal false
  | [alternative] => alternative
  | alternative :: alternatives => .or alternative (joinOr alternatives)

@[simp] theorem known_true (answer : Bool) : (some answer == some true) = answer := by
  cases answer <;> rfl

@[simp] theorem unknown_true : ((none : Option Bool) == some true) = false := rfl

@[simp] theorem holds_test (test : Test) : holds value (.test test) = (value test == some true) := rfl

@[simp] theorem holds_literal (answer : Bool) : holds value (.literal answer) = answer := by
  cases answer <;> rfl

@[simp] theorem holds_and (left right : Predicate Test) : holds value (.and left right) = (holds value left && holds value right) := by
  rw [holds, holds, holds, truth]
  cases truth value left with
  | none =>
      cases truth value right with
      | none => rfl
      | some second => cases second <;> rfl
  | some first => cases first <;> rfl

@[simp] theorem holds_or (left right : Predicate Test) : holds value (.or left right) = (holds value left || holds value right) := by
  rw [holds, holds, holds, truth]
  cases truth value left with
  | none =>
      cases truth value right with
      | none => rfl
      | some second => cases second <;> rfl
  | some first => cases first <;> rfl

@[simp] theorem holds_case (condition met other : Predicate Test) :
    holds value (.case condition met other) = if holds value condition then holds value met else holds value other := by
  by_cases taken : truth value condition = some true
  · simp only [holds, truth, taken, if_true, beq_self_eq_true]
  · simp only [holds, truth, taken, if_false, beq_iff_eq]

@[simp] theorem holds_join_and (parts : List (Predicate Test)) (last : Predicate Test) :
    holds value (joinAnd parts last) = (parts.all (holds value) && holds value last) := by
  induction parts with
  | nil => rfl
  | cons part parts ih => rw [joinAnd, holds_and, ih, List.all_cons, Bool.and_assoc]

@[simp] theorem holds_join_or (alternatives : List (Predicate Test)) :
    holds value (joinOr alternatives) = alternatives.any (holds value) := by
  induction alternatives with
  | nil => rfl
  | cons alternative rest ih =>
      cases rest with
      | nil => rw [joinOr, List.any_cons, List.any_nil, Bool.or_false]
      | cons next rest =>
          have step : joinOr (alternative :: next :: rest) = .or alternative (joinOr (next :: rest)) := rfl
          rw [step, holds_or, ih]
          rfl

end ThreeValued
