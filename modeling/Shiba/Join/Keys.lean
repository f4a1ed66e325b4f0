import Shiba.Join.Reached

set_option autoImplicit false

namespace Shiba.Join

-- SQL's AND over three-valued operands.
def MatchTruth.and : MatchTruth → MatchTruth → MatchTruth
  | .false, _ => .false
  | _, .false => .false
  | .unknown, _ => .unknown
  | _, .unknown => .unknown
  | .true, .true => .true

def conjunction (atoms : List MatchTruth) : MatchTruth := atoms.foldr MatchTruth.and .true

@[simp] theorem conjunction_nil : conjunction [] = .true := rfl

@[simp] theorem conjunction_cons (atom : MatchTruth) (rest : List MatchTruth) :
    conjunction (atom :: rest) = atom.and (conjunction rest) := rfl

theorem and_true_iff (left right : MatchTruth) : left.and right = .true ↔ left = .true ∧ right = .true := by
  cases left <;> cases right <;> simp [MatchTruth.and]

theorem and_ne_false_iff (left right : MatchTruth) : left.and right ≠ .false ↔ left ≠ .false ∧ right ≠ .false := by
  cases left <;> cases right <;> simp [MatchTruth.and]

theorem conjunction_true_iff (atoms : List MatchTruth) : conjunction atoms = .true ↔ ∀ atom ∈ atoms, atom = .true := by
  induction atoms with
  | nil => simp
  | cons atom rest ih => rw [conjunction_cons, and_true_iff, ih, List.forall_mem_cons]

theorem conjunction_ne_false_iff (atoms : List MatchTruth) :
    conjunction atoms ≠ .false ↔ ∀ atom ∈ atoms, atom ≠ .false := by
  induction atoms with
  | nil => simp
  | cons atom rest ih => rw [conjunction_cons, and_ne_false_iff, ih, List.forall_mem_cons]

-- A direct `Input = Input` conjunct. The operator is strict, and the same in both directions.
structure JoinEquiKey (Row Value : Type) where
  left : Row → Option Value
  right : Row → Option Value
  equal : Value → Value → Bool
  symmetric : ∀ one other, equal one other = equal other one

section

variable {Row Value : Type}

def JoinEquiKey.column (key : JoinEquiKey Row Value) (side : InputSide) : Row → Option Value :=
  match side with
  | .left => key.left
  | .right => key.right

def sqlEqual (equal : Value → Value → Bool) (one other : Option Value) : MatchTruth :=
  match one, other with
  | some one, some other => if equal one other then .true else .false
  | _, _ => .unknown

-- The conjunct of the condition.
def JoinEquiKey.truth (key : JoinEquiKey Row Value) (left right : Row) : MatchTruth :=
  sqlEqual key.equal (key.left left) (key.right right)

-- `candidate.key_n = (expression)`.
def JoinEquiKey.probe (key : JoinEquiKey Row Value) (side : InputSide) (row other : Row) : MatchTruth :=
  sqlEqual key.equal (key.column side.opposite other) (key.column side row)

-- `candidate.key_n IS NULL OR (expression) IS NULL`.
def JoinEquiKey.missing (key : JoinEquiKey Row Value) (side : InputSide) (row other : Row) : Bool :=
  (key.column side.opposite other).isNone || (key.column side row).isNone

section

variable (keys : List (JoinEquiKey Row Value)) (side : InputSide) (row other : Row)

def keyExactPredicate : Bool := keys.all fun key => decide (key.probe side row other = .true)

def keyUnknownPredicate : Bool :=
  (keys.all fun key => decide (key.probe side row other = .true) || key.missing side row other) &&
    keys.any fun key => key.missing side row other

def keyPredicate (includeUnknown : Bool) : Bool :=
  if keys.isEmpty then true
  else if includeUnknown then keyExactPredicate keys side row other || keyUnknownPredicate keys side row other
  else keyExactPredicate keys side row other

-- `ON (on) AND key_predicate`. The predicate is appended as it is, and AND
-- binds tighter than OR: its second branch does not depend on `on`.
def keyJoin (includeUnknown on : Bool) : Bool :=
  if keys.isEmpty then on
  else if includeUnknown then (on && keyExactPredicate keys side row other) || keyUnknownPredicate keys side row other
  else on && keyExactPredicate keys side row other

end

theorem probe_truth (key : JoinEquiKey Row Value) (side : InputSide) (row other : Row) :
    key.probe side row other = truthOf key.truth side row other := by
  have swapped : ∀ one other : Option Value, sqlEqual key.equal one other = sqlEqual key.equal other one := by
    intro one other
    cases one <;> cases other <;> simp [sqlEqual, key.symmetric]
  cases side with
  | left => exact swapped _ _
  | right => rfl

theorem probe_unknown (key : JoinEquiKey Row Value) (side : InputSide) (row other : Row) :
    key.probe side row other = .unknown ↔ key.missing side row other = true := by
  unfold JoinEquiKey.probe JoinEquiKey.missing sqlEqual
  cases key.column side.opposite other with
  | none => simp
  | some stored =>
      cases key.column side row with
      | none => simp
      | some here =>
          simp only [Option.isNone_some, Bool.or_self, Bool.false_eq_true, iff_false]
          split <;> simp

section

variable (keys : List (JoinEquiKey Row Value)) (residual : Row → Row → MatchTruth) (side : InputSide)
  (row other : Row)

theorem exact_iff :
    keyExactPredicate keys side row other = true ↔ ∀ key ∈ keys, key.probe side row other = .true := by
  simp [keyExactPredicate]

theorem unknown_iff :
    keyUnknownPredicate keys side row other = true ↔ (∀ key ∈ keys, key.probe side row other ≠ .false) ∧
      ∃ key ∈ keys, key.probe side row other = .unknown := by
  have compatible : ∀ key : JoinEquiKey Row Value,
      (decide (key.probe side row other = .true) || key.missing side row other) = true ↔ key.probe side row other ≠ .false := by
    intro key
    rw [Bool.or_eq_true, decide_eq_true_eq, ← probe_unknown]
    cases key.probe side row other <;> simp
  unfold keyUnknownPredicate
  rw [Bool.and_eq_true, List.all_eq_true, List.any_eq_true]
  simp only [compatible, ← probe_unknown]

-- The two branches of the key predicate hold every row for which the condition is not FALSE.
theorem branch_of_relevant {keys : List (JoinEquiKey Row Value)} {side : InputSide} {row other : Row} {residual : MatchTruth}
    (relevant : (conjunction (keys.map fun key => key.probe side row other)).and residual ≠ .false) :
    keyExactPredicate keys side row other = true ∨ keyUnknownPredicate keys side row other = true := by
  rw [and_ne_false_iff, conjunction_ne_false_iff] at relevant
  have compatible : ∀ key ∈ keys, key.probe side row other ≠ .false :=
    fun key member => relevant.1 _ (List.mem_map_of_mem member)
  by_cases any : ∃ key ∈ keys, key.probe side row other = .unknown
  · exact Or.inr ((unknown_iff keys side row other).mpr ⟨compatible, any⟩)
  · apply Or.inl
    apply (exact_iff keys side row other).mpr
    intro key member
    have known : key.probe side row other ≠ .unknown := fun missing => any ⟨key, member, missing⟩
    have same := compatible key member
    cases truth : key.probe side row other <;> simp_all

def keyedCondition (keys : List (JoinEquiKey Row Value)) (residual : Row → Row → MatchTruth) (left right : Row) : MatchTruth :=
  (conjunction (keys.map fun key => key.truth left right)).and (residual left right)

theorem keyed_truth :
    truthOf (keyedCondition keys residual) side row other =
      (conjunction (keys.map fun key => key.probe side row other)).and (truthOf residual side row other) := by
  simp only [probe_truth]
  cases side <;> rfl

theorem unprobed_false (hidden : keyPredicate keys side row other true = false) :
    truthOf (keyedCondition keys residual) side row other = .false := by
  by_contra relevant
  rw [keyed_truth] at relevant
  have branch := branch_of_relevant relevant
  unfold keyPredicate at hidden
  split at hidden
  · cases hidden
  · rcases branch with exact | unknown
    · simp [exact] at hidden
    · simp [unknown] at hidden

end

-- An inner join as its layout has it: the condition is the keys and a residual, and
-- the probe of a row asks the key predicate.
structure Layout (Row Value : Type) where
  spec : JoinSpec Row
  keys : List (JoinEquiKey Row Value)
  residual : Row → Row → MatchTruth
  conjoined : ∀ left right, spec.condition left right = keyedCondition keys residual left right
  probes : ∀ side row other, spec.probed side row other = keyPredicate keys side row other true

-- A key is NULL, no key differs, and the residual is FALSE: the condition is FALSE.
def FalselyUnknown (layout : Layout Row Value) (side : InputSide) (row other : Row) : Prop :=
  keyUnknownPredicate layout.keys side row other = true ∧ truthOf layout.residual side row other = .false

section

variable (layout : Layout Row Value) (side : InputSide) (row other : Row)

theorem truth_conjoined : truthOf layout.spec.condition side row other =
    (conjunction (layout.keys.map fun key => key.probe side row other)).and (truthOf layout.residual side row other) := by
  have same : layout.spec.condition = keyedCondition layout.keys layout.residual := by
    funext left right
    exact layout.conjoined left right
  rw [same, keyed_truth]

theorem true_exact (hit : truthOf layout.spec.condition side row other = .true) :
    keyExactPredicate layout.keys side row other = true := by
  rw [truth_conjoined, and_true_iff, conjunction_true_iff] at hit
  apply (exact_iff layout.keys side row other).mpr
  intro key member
  exact hit.1 _ (List.mem_map_of_mem member)

theorem relevant_branch (relevant : truthOf layout.spec.condition side row other ≠ .false) :
    keyExactPredicate layout.keys side row other = true ∨ keyUnknownPredicate layout.keys side row other = true := by
  rw [truth_conjoined] at relevant
  exact branch_of_relevant relevant

theorem unknown_truth (missing : keyUnknownPredicate layout.keys side row other = true) :
    truthOf layout.spec.condition side row other = .unknown ↔ ¬ FalselyUnknown layout side row other := by
  obtain ⟨compatible, key, member, unknown⟩ := (unknown_iff layout.keys side row other).mp missing
  have kept : conjunction (layout.keys.map fun key => key.probe side row other) = .unknown := by
    have first : conjunction (layout.keys.map fun key => key.probe side row other) ≠ .false := by
      apply (conjunction_ne_false_iff _).mpr
      intro atom listed
      obtain ⟨one, inside, rfl⟩ := List.mem_map.mp listed
      exact compatible one inside
    have second : conjunction (layout.keys.map fun key => key.probe side row other) ≠ .true := by
      intro all
      have here := (conjunction_true_iff _).mp all _ (List.mem_map_of_mem member)
      rw [unknown] at here
      cases here
    cases truth : conjunction (layout.keys.map fun key => key.probe side row other) <;> simp_all
  rw [truth_conjoined, kept]
  unfold FalselyUnknown
  cases truthOf layout.residual side row other <;> simp [MatchTruth.and, missing]

-- The rows of the match branch are those for which the condition is TRUE.
theorem key_join_matched : keyJoin layout.keys side row other false
    (decide (truthOf layout.spec.condition side row other = .true)) =
      decide (truthOf layout.spec.condition side row other = .true) := by
  unfold keyJoin
  split
  · rfl
  · by_cases hit : truthOf layout.spec.condition side row other = .true
    · rw [decide_eq_true hit, true_exact layout side row other hit]
      rfl
    · rw [decide_eq_false hit]
      rfl

theorem key_join_filtered (truth : MatchTruth) (relevant : truth ≠ .false) :
    (keyJoin layout.keys side row other true true && decide (truthOf layout.spec.condition side row other = truth)) =
      decide (truthOf layout.spec.condition side row other = truth) := by
  by_cases hit : truthOf layout.spec.condition side row other = truth
  · have branch := relevant_branch layout side row other (by rw [hit]; exact relevant)
    have joined : keyJoin layout.keys side row other true true = true := by
      unfold keyJoin
      split
      · rfl
      · rcases branch with exact | unknown
        · simp [exact]
        · simp [unknown]
    rw [joined, Bool.true_and]
  · rw [decide_eq_false hit, Bool.and_false]

-- The unknown branch joins a row exactly when the condition is NULL or only a key is.
theorem key_join_unknown : keyJoin layout.keys side row other true
    (decide (truthOf layout.spec.condition side row other = .unknown)) = true ↔
      truthOf layout.spec.condition side row other = .unknown ∨ FalselyUnknown layout side row other := by
  have branch := relevant_branch layout side row other
  have judged := unknown_truth layout side row other
  unfold keyJoin
  split
  · rename_i keyless
    have none : keyUnknownPredicate layout.keys side row other = false := by
      rw [List.isEmpty_iff.mp keyless]
      rfl
    simp [FalselyUnknown, none]
  · by_cases missing : keyUnknownPredicate layout.keys side row other = true
    · have either := judged missing
      simp only [missing, Bool.or_true, if_true, true_iff]
      by_cases falsely : FalselyUnknown layout side row other
      · exact Or.inr falsely
      · exact Or.inl (either.mpr falsely)
    · have kept : ¬ FalselyUnknown layout side row other := fun falsely => missing falsely.1
      simp only [missing, Bool.or_false, if_true, Bool.and_eq_true, decide_eq_true_eq, kept, or_false]
      constructor
      · exact fun both => both.1
      · intro hit
        rcases branch (by rw [hit]; decide) with exact | unknown
        · exact ⟨hit, exact⟩
        · exact absurd unknown missing

end

end

end Shiba.Join
