import Shiba.Planner.Model
import Shiba.Join.Keys

set_option autoImplicit false

namespace Shiba.Join

open Shiba.Planner (BindingId ScalarExpr InputSlot JoinKind)

-- What the database knows of operators: their names, the strict functions behind
-- them, and the equality that `=` without a schema means on a type.
structure OperatorCatalog (Value : Type) where
  opname : Oid → String
  holds : Oid → Value → Value → Bool
  equality : Oid → Value → Value → Bool
  symmetric : ∀ type one other, equality type one other = equality type other one

mutual
def conjuncts : ScalarExpr → List ScalarExpr
  | .bool .and args => conjunctsAll args
  | expression => [expression]

def conjunctsAll : List ScalarExpr → List ScalarExpr
  | [] => []
  | arg :: rest => conjuncts arg ++ conjunctsAll rest
end

-- The lookup in by_binding; a later slot replaces an earlier one.
def slotOf (leftInputs rightInputs : List InputSlot) (binding : BindingId) : Option InputSlot :=
  (leftInputs ++ rightInputs).reverse.find? fun input => decide (input.binding = binding)

def sameType (first second : InputSlot) : Bool :=
  decide (first.type.typeOid = second.type.typeOid) && decide (first.type.typmod = second.type.typmod) &&
    decide (first.type.collationOid = second.type.collationOid)

section

variable {Value : Type} (catalog : OperatorCatalog Value) (kind : JoinKind) (leftInputs rightInputs : List InputSlot)

-- The key of one atom, where it has one.
def equiKeyOf (atom : ScalarExpr) : Option Planner.JoinEquiKey :=
  match atom with
  | .operator operatorOid [.input first, .input second] _ =>
      if catalog.opname operatorOid ≠ "=" then none
      else
        match slotOf leftInputs rightInputs first, slotOf leftInputs rightInputs second with
        | some firstInput, some secondInput =>
            if !sameType firstInput secondInput then none
            else if firstInput.input = 0 ∧ secondInput.input = 1 then some ⟨first, second⟩
            else if firstInput.input = 1 ∧ secondInput.input = 0 then some ⟨second, first⟩
            else none
        | _, _ => none
  | _ => none

def pushKey (keys : List Planner.JoinEquiKey) (atom : ScalarExpr) : List Planner.JoinEquiKey :=
  match equiKeyOf catalog leftInputs rightInputs atom with
  | some key => if key ∈ keys then keys else keys ++ [key]
  | none => keys

def extractJoinEquiKeys (condition : ScalarExpr) : List Planner.JoinEquiKey :=
  if kind = .nullAwareAnti then [] else (conjuncts condition).foldl (pushKey catalog leftInputs rightInputs) []

-- A row by the bindings of its side.
abbrev BoundRow (Value : Type) := BindingId → Option Value

def pairValues (left right : BoundRow Value) (binding : BindingId) : Option Value :=
  match slotOf leftInputs rightInputs binding with
  | some input => if input.input = 0 then left binding else right binding
  | none => none

-- The truth of a condition; `rest` is what SQL makes of every other expression.
mutual
def conditionTruth (values : BoundRow Value) (rest : ScalarExpr → BoundRow Value → MatchTruth) : ScalarExpr → MatchTruth
  | .bool .and args => conditionTruthAll values rest args
  | .operator operatorOid [.input first, .input second] type =>
      if catalog.opname operatorOid = "=" then sqlEqual (catalog.holds operatorOid) (values first) (values second)
      else rest (.operator operatorOid [.input first, .input second] type) values
  | expression => rest expression values

def conditionTruthAll (values : BoundRow Value) (rest : ScalarExpr → BoundRow Value → MatchTruth) : List ScalarExpr → MatchTruth
  | [] => .true
  | arg :: more => (conditionTruth values rest arg).and (conditionTruthAll values rest more)
end

-- A key as the runtime renders it: the columns of both sides under `=`.
def runtimeKey (key : Planner.JoinEquiKey) : JoinEquiKey (BoundRow Value) Value where
  left := fun row => row key.leftBinding
  right := fun row => row key.rightBinding
  equal := catalog.equality (((slotOf leftInputs rightInputs key.leftBinding).map fun input => input.type.typeOid).getD 0)
  symmetric := catalog.symmetric _

end

section

variable {Row Value : Type} (keys : List (JoinEquiKey Row Value)) (condition : Row → Row → MatchTruth) (side : InputSide)
  (row : Row) (stored : List (Row × Nat))

-- The stored rows that a probe counts, with their truth.
def countedCandidates : List ((Row × Nat) × MatchTruth) :=
  ((stored.filter fun entry => keyPredicate keys side row entry.1 true).map
    fun entry => (entry, truthOf condition side row entry.1)).filter fun candidate => decide (candidate.2 ≠ .false)

-- The pairs that an inner page puts out, which are those of match_count.
def pageMatched : List (Row × Nat) :=
  stored.filter fun entry => keyJoin keys side row entry.1 false (decide (truthOf condition side row entry.1 = .true))

def pageUnknown : List (Row × Nat) :=
  stored.filter fun entry => keyJoin keys side row entry.1 true (decide (truthOf condition side row entry.1 = .unknown))

-- The rows of the other side whose counts an inner page moves.
def pageTouched (truth : MatchTruth) : List (Row × Nat) :=
  stored.filter fun entry => keyJoin keys side row entry.1 true true && decide (truthOf condition side row entry.1 = truth)

def candidateCount (entries : List (Row × Nat)) : Nat := (entries.map Prod.snd).sum

end

def noKeys (Row Value : Type) : List (JoinEquiKey Row Value) := []

-- The keys are a superset of the condition, and joining with them is joining without.
structure KeysSound {Row Value : Type} (keys : List (JoinEquiKey Row Value)) (condition : Row → Row → MatchTruth) : Prop where
  exact : ∀ side row other, truthOf condition side row other = .true → keyExactPredicate keys side row other = true
  unknown : ∀ side row other, truthOf condition side row other = .unknown →
    keyExactPredicate keys side row other = true ∨ keyUnknownPredicate keys side row other = true
  candidates : ∀ side row stored, countedCandidates keys condition side row stored = countedCandidates (noKeys Row Value) condition side row stored
  outputs : ∀ side row stored, pageMatched keys condition side row stored = pageMatched (noKeys Row Value) condition side row stored
  matchCount : ∀ side row stored,
    candidateCount (pageMatched keys condition side row stored) = candidateCount (pageMatched (noKeys Row Value) condition side row stored)
  unknownCount : ∀ side row stored,
    candidateCount (pageUnknown keys condition side row stored) = candidateCount (pageUnknown (noKeys Row Value) condition side row stored)
  moved : ∀ side row stored truth, truth ≠ .false →
    pageTouched keys condition side row stored truth = pageTouched (noKeys Row Value) condition side row stored truth

section

variable {Row Value : Type} (keys : List (JoinEquiKey Row Value)) (condition : Row → Row → MatchTruth)

-- What the condition is on a pair against what its keys are.
structure PairSound (left right : Row) : Prop where
  compatible : condition left right ≠ .false → ∀ key ∈ keys, key.truth left right ≠ .false
  known : condition left right = .true → ∀ key ∈ keys, key.truth left right = .true
  counted : condition left right = .false → keyUnknownPredicate keys .left left right = false

section

variable (row other : Row) (unknown on : Bool)

theorem exact_sides : keyExactPredicate keys .right row other = keyExactPredicate keys .left other row := by
  have same (key : JoinEquiKey Row Value) : key.probe .right row other = key.probe .left other row := by
    rw [probe_truth, probe_truth]
    rfl
  unfold keyExactPredicate
  simp only [same]

theorem unknown_sides : keyUnknownPredicate keys .right row other = keyUnknownPredicate keys .left other row := by
  have same (key : JoinEquiKey Row Value) : key.probe .right row other = key.probe .left other row := by
    rw [probe_truth, probe_truth]
    rfl
  have missing (key : JoinEquiKey Row Value) : key.missing .right row other = key.missing .left other row := Bool.or_comm _ _
  unfold keyUnknownPredicate
  simp only [same, missing]

theorem join_sides :
    keyJoin keys .right row other unknown on = keyJoin keys .left other row unknown on := by
  unfold keyJoin
  rw [exact_sides, unknown_sides]

theorem predicate_sides :
    keyPredicate keys .right row other unknown = keyPredicate keys .left other row unknown := by
  unfold keyPredicate
  rw [exact_sides, unknown_sides]

end

theorem left_probe (key : JoinEquiKey Row Value) (left right : Row) : key.probe .left left right = key.truth left right :=
  probe_truth key .left left right

variable {left right : Row}

section

variable {keys condition} (sound : PairSound keys condition left right)

include sound

theorem true_in_exact (hit : condition left right = .true) : keyExactPredicate keys .left left right = true := by
  apply (exact_iff keys .left left right).mpr
  intro key member
  rw [left_probe]
  exact sound.known hit key member

theorem relevant_in_branch (relevant : condition left right ≠ .false) :
    keyExactPredicate keys .left left right = true ∨ keyUnknownPredicate keys .left left right = true := by
  have compatible := sound.compatible relevant
  by_cases any : ∃ key ∈ keys, key.truth left right = .unknown
  · right
    apply (unknown_iff keys .left left right).mpr
    simp only [left_probe]
    exact ⟨compatible, any⟩
  · left
    apply (exact_iff keys .left left right).mpr
    intro key member
    rw [left_probe]
    cases truth : key.truth left right with
    | true => rfl
    | false => exact absurd truth (compatible key member)
    | unknown => exact absurd ⟨key, member, truth⟩ any

theorem relevant_predicate (relevant : condition left right ≠ .false) : keyPredicate keys .left left right true = true := by
  unfold keyPredicate
  split
  · rfl
  · rw [if_pos rfl, Bool.or_eq_true]
    exact relevant_in_branch sound relevant

theorem relevant_join (relevant : condition left right ≠ .false) : keyJoin keys .left left right true true = true := by
  unfold keyJoin
  split
  · rfl
  · rw [if_pos rfl, Bool.true_and, Bool.or_eq_true]
    exact relevant_in_branch sound relevant

theorem matched_join : keyJoin keys .left left right false (decide (condition left right = .true)) =
    decide (condition left right = .true) := by
  unfold keyJoin
  split
  · rfl
  · by_cases hit : condition left right = .true
    · rw [decide_eq_true hit, true_in_exact sound hit]
      rfl
    · rw [decide_eq_false hit]
      rfl

-- A pair whose key is unknown is not TRUE, and where it is FALSE its key is known.
theorem unknown_join : keyJoin keys .left left right true (decide (condition left right = .unknown)) =
    decide (condition left right = .unknown) := by
  unfold keyJoin
  split
  · rfl
  · rw [if_pos rfl]
    cases truth : condition left right with
    | unknown =>
        rw [decide_eq_true rfl, Bool.true_and, Bool.or_eq_true]
        exact relevant_in_branch sound (by rw [truth]; exact MatchTruth.noConfusion)
    | false =>
        rw [sound.counted truth, decide_eq_false MatchTruth.noConfusion]
        rfl
    | true =>
        have hidden : keyUnknownPredicate keys .left left right = false := by
          rw [Bool.eq_false_iff]
          intro some
          obtain ⟨_, key, member, missing⟩ := (unknown_iff keys .left left right).mp some
          rw [left_probe, sound.known truth key member] at missing
          cases missing
        rw [hidden, decide_eq_false MatchTruth.noConfusion]
        rfl

end

theorem keyless_join (side : InputSide) (row other : Row) (unknown on : Bool) :
    keyJoin (noKeys Row Value) side row other unknown on = on := rfl

-- What holds of every pair holds of what a probe and a page join.
theorem keys_sound_of_pairs (sound : ∀ left right, PairSound keys condition left right) : KeysSound keys condition := by
  have exact (side : InputSide) (row other : Row) (hit : truthOf condition side row other = .true) :
      keyExactPredicate keys side row other = true := by
    cases side with
    | left => exact true_in_exact (sound row other) hit
    | right =>
        rw [exact_sides]
        exact true_in_exact (sound other row) hit
  have branch (side : InputSide) (row other : Row) (relevant : truthOf condition side row other ≠ .false) :
      keyExactPredicate keys side row other = true ∨ keyUnknownPredicate keys side row other = true := by
    cases side with
    | left => exact relevant_in_branch (sound row other) relevant
    | right =>
        rw [exact_sides, unknown_sides]
        exact relevant_in_branch (sound other row) relevant
  have probed (side : InputSide) (row other : Row) (relevant : truthOf condition side row other ≠ .false) :
      keyPredicate keys side row other true = true := by
    cases side with
    | left => exact relevant_predicate (sound row other) relevant
    | right =>
        rw [predicate_sides]
        exact relevant_predicate (sound other row) relevant
  have touched (side : InputSide) (row other : Row) (relevant : truthOf condition side row other ≠ .false) :
      keyJoin keys side row other true true = true := by
    cases side with
    | left => exact relevant_join (sound row other) relevant
    | right =>
        rw [join_sides]
        exact relevant_join (sound other row) relevant
  have matched (side : InputSide) (row other : Row) : keyJoin keys side row other false (decide (truthOf condition side row other = .true)) =
      decide (truthOf condition side row other = .true) := by
    cases side with
    | left => exact matched_join (sound row other)
    | right =>
        rw [join_sides]
        exact matched_join (sound other row)
  have counted (side : InputSide) (row other : Row) :
      keyJoin keys side row other true (decide (truthOf condition side row other = .unknown)) =
        decide (truthOf condition side row other = .unknown) := by
    cases side with
    | left => exact unknown_join (sound row other)
    | right =>
        rw [join_sides]
        exact unknown_join (sound other row)
  have outputs (side : InputSide) (row : Row) (stored : List (Row × Nat)) :
      pageMatched keys condition side row stored = pageMatched (noKeys Row Value) condition side row stored :=
    List.filter_congr fun entry _ => matched side row entry.1
  refine ⟨exact, ?_, ?_, outputs, fun side row stored => congrArg candidateCount (outputs side row stored), ?_, ?_⟩
  · intro side row other missing
    exact branch side row other (by rw [missing]; exact MatchTruth.noConfusion)
  · intro side row stored
    unfold countedCandidates
    rw [List.filter_map, List.filter_map, List.filter_filter, List.filter_filter]
    congr 1
    apply List.filter_congr
    intro entry _
    change (decide (truthOf condition side row entry.1 ≠ .false) && _) = (decide (truthOf condition side row entry.1 ≠ .false) && true)
    by_cases relevant : truthOf condition side row entry.1 ≠ .false
    · rw [probed side row entry.1 relevant]
    · rw [decide_eq_false relevant]
      rfl
  · intro side row stored
    exact congrArg candidateCount (List.filter_congr fun entry _ => counted side row entry.1)
  · intro side row stored truth relevant
    apply List.filter_congr
    intro entry _
    by_cases same : truthOf condition side row entry.1 = truth
    · rw [touched side row entry.1 (by rw [same]; exact relevant)]
      rfl
    · rw [decide_eq_false same, Bool.and_false, Bool.and_false]

-- A page over one stored row tells a pair that is counted only for its key.
theorem pairs_of_keys_sound (all : KeysSound keys condition) : PairSound keys condition left right := by
  refine ⟨?_, ?_, ?_⟩
  · intro relevant key member
    rw [← left_probe]
    cases truth : condition left right with
    | false => exact absurd truth relevant
    | true =>
        have hit := (exact_iff keys .left left right).mp (all.exact .left left right truth) key member
        rw [hit]
        exact MatchTruth.noConfusion
    | unknown =>
        rcases all.unknown .left left right truth with exact | missing
        · rw [(exact_iff keys .left left right).mp exact key member]
          exact MatchTruth.noConfusion
        · exact ((unknown_iff keys .left left right).mp missing).1 key member
  · intro hit key member
    rw [← left_probe]
    exact (exact_iff keys .left left right).mp (all.exact .left left right hit) key member
  · intro denied
    have count := all.unknownCount .left left [(right, 1)]
    rw [Bool.eq_false_iff]
    intro some
    have keyed : keys.isEmpty = false := by
      obtain ⟨_, key, member, _⟩ := (unknown_iff keys .left left right).mp some
      exact List.isEmpty_eq_false_iff_exists_mem.mpr ⟨key, member⟩
    have joined : keyJoin keys .left left right true (decide (truthOf condition .left left right = .unknown)) = true := by
      unfold keyJoin
      rw [keyed, if_neg Bool.false_ne_true, if_pos rfl, some, Bool.or_true]
    have apart : keyJoin (noKeys Row Value) .left left right true
        (decide (truthOf condition .left left right = .unknown)) = false := by
      rw [keyless_join]
      apply decide_eq_false
      change condition left right ≠ .unknown
      rw [denied]
      exact MatchTruth.noConfusion
    have one : pageUnknown keys condition .left left [(right, 1)] = [(right, 1)] := List.filter_cons_of_pos joined
    have none : pageUnknown (noKeys Row Value) condition .left left [(right, 1)] = [] :=
      List.filter_cons_of_neg (Bool.eq_false_iff.mp apart)
    rw [one, none] at count
    cases count

end

section

variable {Value : Type} (catalog : OperatorCatalog Value) (leftInputs rightInputs : List InputSlot)

-- A conjunct `Input = Input` across the sides: what its operator makes of a left and
-- a right value, the type of both, and their bindings.
inductive EqualityConjunct : ScalarExpr → (Value → Value → Bool) → Oid → BindingId → BindingId → Prop where
  | straight (operatorOid : Oid) (first second : BindingId) (type : Planner.SlotType) (firstInput secondInput : InputSlot)
      (named : catalog.opname operatorOid = "=") (isFirst : slotOf leftInputs rightInputs first = some firstInput)
      (isSecond : slotOf leftInputs rightInputs second = some secondInput) (same : sameType firstInput secondInput = true)
      (onLeft : firstInput.input = 0) (onRight : secondInput.input = 1) :
      EqualityConjunct (.operator operatorOid [.input first, .input second] type) (catalog.holds operatorOid)
        firstInput.type.typeOid first second
  | crossed (operatorOid : Oid) (first second : BindingId) (type : Planner.SlotType) (firstInput secondInput : InputSlot)
      (named : catalog.opname operatorOid = "=") (isFirst : slotOf leftInputs rightInputs first = some firstInput)
      (isSecond : slotOf leftInputs rightInputs second = some secondInput) (same : sameType firstInput secondInput = true)
      (onRight : firstInput.input = 1) (onLeft : secondInput.input = 0) :
      EqualityConjunct (.operator operatorOid [.input first, .input second] type)
        (fun left right => catalog.holds operatorOid right left) secondInput.type.typeOid second first

theorem equi_key_of_conjunct {atom : ScalarExpr} {holds : Value → Value → Bool} {type : Oid} {left right : BindingId}
    (equality : EqualityConjunct catalog leftInputs rightInputs atom holds type left right) :
    equiKeyOf catalog leftInputs rightInputs atom = some ⟨left, right⟩ := by
  cases equality with
  | straight operatorOid first second type firstInput secondInput named isFirst isSecond same onLeft onRight
  | crossed operatorOid first second type firstInput secondInput named isFirst isSecond same onRight onLeft =>
      simp [equiKeyOf, named, isFirst, isSecond, same, onLeft, onRight]

theorem conjunct_of_equi_key (atom : ScalarExpr) (key : Planner.JoinEquiKey)
    (found : equiKeyOf catalog leftInputs rightInputs atom = some key) :
    ∃ holds type, EqualityConjunct catalog leftInputs rightInputs atom holds type key.leftBinding key.rightBinding := by
  unfold equiKeyOf at found
  split at found
  · rename_i operatorOid first second type
    split at found
    · cases found
    · rename_i named
      split at found
      · rename_i firstInput secondInput isFirst isSecond
        split at found
        · cases found
        · rename_i same
          have sameTypes : sameType firstInput secondInput = true := by simpa using same
          split at found
          · rename_i sides
            obtain rfl := Option.some.inj found
            exact ⟨_, _, .straight operatorOid first second type firstInput secondInput (not_not.mp named) isFirst isSecond sameTypes
              sides.1 sides.2⟩
          · split at found
            · rename_i sides
              obtain rfl := Option.some.inj found
              exact ⟨_, _, .crossed operatorOid first second type firstInput secondInput (not_not.mp named) isFirst isSecond sameTypes
                sides.1 sides.2⟩
            · cases found
      · cases found
  · cases found

theorem push_member (atoms : List ScalarExpr) (keys : List Planner.JoinEquiKey) (key : Planner.JoinEquiKey) :
    key ∈ atoms.foldl (pushKey catalog leftInputs rightInputs) keys ↔
      key ∈ keys ∨ ∃ atom ∈ atoms, equiKeyOf catalog leftInputs rightInputs atom = some key := by
  induction atoms generalizing keys with
  | nil => simp
  | cons atom rest ih =>
      rw [List.foldl_cons, ih]
      unfold pushKey
      cases found : equiKeyOf catalog leftInputs rightInputs atom with
      | none => simp [found]
      | some other =>
          by_cases known : other ∈ keys
          · simp only [known, if_true, List.exists_mem_cons_iff, found, Option.some.injEq]
            constructor
            · rintro (old | later)
              · exact .inl old
              · exact .inr (.inr later)
            · rintro (old | rfl | later)
              · exact .inl old
              · exact .inl known
              · exact .inr later
          · simp only [known, if_false, List.exists_mem_cons_iff, found, Option.some.injEq, List.mem_append, List.mem_singleton]
            constructor
            · rintro ((old | rfl) | later)
              · exact .inl old
              · exact .inr (.inl rfl)
              · exact .inr (.inr later)
            · rintro (old | rfl | later)
              · exact .inl (.inl old)
              · exact .inl (.inr rfl)
              · exact .inr later

-- The keys are those of the conjuncts, but for NULL-aware joins.
theorem extracted_iff (kind : JoinKind) (condition : ScalarExpr) (key : Planner.JoinEquiKey) :
    key ∈ extractJoinEquiKeys catalog kind leftInputs rightInputs condition ↔
      kind ≠ .nullAwareAnti ∧ ∃ atom ∈ conjuncts condition, equiKeyOf catalog leftInputs rightInputs atom = some key := by
  unfold extractJoinEquiKeys
  by_cases aware : kind = .nullAwareAnti
  · rw [if_pos aware]
    simp [aware]
  · rw [if_neg aware, push_member]
    simp [aware]

variable (rest : ScalarExpr → BoundRow Value → MatchTruth)

theorem and_true_right (truth : MatchTruth) : truth.and .true = truth := by cases truth <;> rfl

theorem and_assoc (one two three : MatchTruth) : (one.and two).and three = one.and (two.and three) := by
  cases one <;> cases two <;> cases three <;> rfl

theorem conjunction_append (first second : List MatchTruth) :
    conjunction (first ++ second) = (conjunction first).and (conjunction second) := by
  induction first with
  | nil =>
      rw [List.nil_append, conjunction_nil]
      cases conjunction second <;> rfl
  | cons atom more ih => rw [List.cons_append, conjunction_cons, conjunction_cons, ih, and_assoc]

-- A condition is the conjunction of its conjuncts.
theorem conjuncts_truth (values : BoundRow Value) (condition : ScalarExpr) :
    conditionTruth catalog values rest condition = conjunction ((conjuncts condition).map (conditionTruth catalog values rest)) := by
  refine conjuncts.induct
    (fun expression => conditionTruth catalog values rest expression =
      conjunction ((conjuncts expression).map (conditionTruth catalog values rest)))
    (fun args => conditionTruthAll catalog values rest args =
      conjunction ((conjunctsAll args).map (conditionTruth catalog values rest))) ?_ ?_ ?_ ?_ condition
  · intro args ih
    rw [conditionTruth, conjuncts]
    exact ih
  · intro expression other
    rw [conjuncts]
    · rw [List.map_singleton, conjunction_cons, conjunction_nil, and_true_right]
    · exact other
  · rfl
  · intro arg more first later
    rw [conditionTruthAll, conjunctsAll, List.map_append, conjunction_append, first, later]

variable (left right : BoundRow Value)

section

variable {type : Oid} {atom : ScalarExpr} {holds : Value → Value → Bool} (equal : Value → Value → Bool)

section

variable {leftBinding rightBinding : BindingId}
  (equality : EqualityConjunct catalog leftInputs rightInputs atom holds type leftBinding rightBinding)

include equality

-- The truth of an equality conjunct, and that of its key.
theorem conjunct_truth :
    conditionTruth catalog (pairValues leftInputs rightInputs left right) rest atom =
      sqlEqual holds (left leftBinding) (right rightBinding) := by
  cases equality with
  | straight operatorOid first second type firstInput secondInput named isFirst isSecond same onLeft onRight =>
      rw [conditionTruth, if_pos named, pairValues, isFirst, pairValues, isSecond]
      simp only
      rw [if_pos onLeft, if_neg (by rw [onRight]; exact Nat.one_ne_zero)]
  | crossed operatorOid first second type firstInput secondInput named isFirst isSecond same onRight onLeft =>
      rw [conditionTruth, if_pos named, pairValues, isFirst, pairValues, isSecond]
      simp only
      rw [if_neg (by rw [onRight]; exact Nat.one_ne_zero), if_pos onLeft]
      cases left leftBinding <;> cases right rightBinding <;> rfl

theorem conjunct_key :
    (runtimeKey catalog leftInputs rightInputs ⟨leftBinding, rightBinding⟩).truth left right =
      sqlEqual (catalog.equality type) (left leftBinding) (right rightBinding) := by
  have typed : (((slotOf leftInputs rightInputs leftBinding).map fun input => input.type.typeOid).getD 0) = type := by
    cases equality with
    | straight operatorOid first second type firstInput secondInput named isFirst isSecond same onLeft onRight =>
        rw [isFirst]
        rfl
    | crossed operatorOid first second type firstInput secondInput named isFirst isSecond same onRight onLeft =>
        rw [isSecond]
        rfl
  unfold JoinEquiKey.truth runtimeKey
  simp only
  rw [typed]

end

variable (one other : Option Value)

theorem sql_equal_true :
    sqlEqual equal one other = .true ↔ ∃ first second, one = some first ∧ other = some second ∧ equal first second = true := by
  unfold sqlEqual
  cases one <;> cases other <;> simp

theorem sql_equal_false :
    sqlEqual equal one other = .false ↔ ∃ first second, one = some first ∧ other = some second ∧ equal first second = false := by
  unfold sqlEqual
  cases one <;> cases other <;> simp

theorem sql_equal_unknown :
    sqlEqual equal one other = .unknown ↔ one = none ∨ other = none := by
  unfold sqlEqual
  cases one with
  | none => simp
  | some first =>
      cases other with
      | none => simp
      | some second => cases value : equal first second <;> simp [value]

end

variable (condition : ScalarExpr)

def pairTruth (left right : BoundRow Value) : MatchTruth :=
  conditionTruth catalog (pairValues leftInputs rightInputs left right) rest condition

-- Where the condition is not FALSE its equality conjuncts use the `=` of their types;
-- where it is FALSE, no conjunct has a NULL operand while none differs.
structure PairClear : Prop where
  agreed : pairTruth catalog leftInputs rightInputs rest condition left right ≠ .false →
    ∀ atom ∈ conjuncts condition, ∀ holds type leftBinding rightBinding,
      EqualityConjunct catalog leftInputs rightInputs atom holds type leftBinding rightBinding →
      ∀ one other, left leftBinding = some one → right rightBinding = some other →
        holds one other = catalog.equality type one other
  decided : pairTruth catalog leftInputs rightInputs rest condition left right = .false →
    (∀ atom ∈ conjuncts condition, ∀ holds type leftBinding rightBinding,
      EqualityConjunct catalog leftInputs rightInputs atom holds type leftBinding rightBinding →
      ∀ one other, left leftBinding = some one → right rightBinding = some other → catalog.equality type one other = true) →
    ∀ atom ∈ conjuncts condition, ∀ holds type leftBinding rightBinding,
      EqualityConjunct catalog leftInputs rightInputs atom holds type leftBinding rightBinding →
      left leftBinding ≠ none ∧ right rightBinding ≠ none

def layoutKeys (kind : JoinKind) : List (JoinEquiKey (BoundRow Value) Value) :=
  (extractJoinEquiKeys catalog kind leftInputs rightInputs condition).map (runtimeKey catalog leftInputs rightInputs)

-- The keys of a layout are those of its equality conjuncts.
theorem layout_key_iff (kind : JoinKind) (known : kind ≠ .nullAwareAnti) (key : JoinEquiKey (BoundRow Value) Value) :
    key ∈ layoutKeys catalog leftInputs rightInputs condition kind ↔ ∃ atom ∈ conjuncts condition,
      ∃ holds type leftBinding rightBinding,
        EqualityConjunct catalog leftInputs rightInputs atom holds type leftBinding rightBinding ∧
          runtimeKey catalog leftInputs rightInputs ⟨leftBinding, rightBinding⟩ = key := by
  unfold layoutKeys
  rw [List.mem_map]
  constructor
  · intro found
    obtain ⟨plan, member, rfl⟩ := found
    obtain ⟨_, atom, inside, isKey⟩ := (extracted_iff catalog leftInputs rightInputs kind condition plan).mp member
    obtain ⟨holds, type, equality⟩ := conjunct_of_equi_key catalog leftInputs rightInputs atom plan isKey
    exact ⟨atom, inside, holds, type, _, _, equality, rfl⟩
  · intro found
    obtain ⟨atom, inside, holds, type, leftBinding, rightBinding, equality, isKey⟩ := found
    refine ⟨_, (extracted_iff catalog leftInputs rightInputs kind condition _).mpr ⟨known, atom, inside, ?_⟩, isKey⟩
    exact equi_key_of_conjunct catalog leftInputs rightInputs equality

theorem conjunct_part (atom : ScalarExpr) (member : atom ∈ conjuncts condition) :
    (pairTruth catalog leftInputs rightInputs rest condition left right ≠ .false →
      conditionTruth catalog (pairValues leftInputs rightInputs left right) rest atom ≠ .false) ∧
    (pairTruth catalog leftInputs rightInputs rest condition left right = .true →
      conditionTruth catalog (pairValues leftInputs rightInputs left right) rest atom = .true) := by
  unfold pairTruth
  rw [conjuncts_truth catalog rest _ condition]
  refine ⟨?_, ?_⟩
  · intro relevant
    exact (conjunction_ne_false_iff _).mp relevant _ (List.mem_map_of_mem member)
  · intro hit
    exact (conjunction_true_iff _).mp hit _ (List.mem_map_of_mem member)

theorem pair_sound_iff (kind : JoinKind) (known : kind ≠ .nullAwareAnti) :
    PairSound (layoutKeys catalog leftInputs rightInputs condition kind)
        (pairTruth catalog leftInputs rightInputs rest condition) left right ↔
      PairClear catalog leftInputs rightInputs rest left right condition := by
  have keyed := layout_key_iff catalog leftInputs rightInputs condition kind known
  constructor
  · intro sound
    refine ⟨?_, ?_⟩
    · intro relevant atom member holds type leftBinding rightBinding equality one other isOne isOther
      have truth := (conjunct_part catalog leftInputs rightInputs rest left right condition atom member).1 relevant
      have key := sound.compatible relevant _ ((keyed _).mpr ⟨atom, member, holds, type, _, _, equality, rfl⟩)
      rw [conjunct_truth catalog leftInputs rightInputs rest left right equality, Ne, sql_equal_false] at truth
      rw [conjunct_key catalog leftInputs rightInputs left right equality, Ne, sql_equal_false] at key
      have first : holds one other = true := by
        by_contra wrong
        exact truth ⟨one, other, isOne, isOther, Bool.eq_false_iff.mpr wrong⟩
      have second : catalog.equality type one other = true := by
        by_contra wrong
        exact key ⟨one, other, isOne, isOther, Bool.eq_false_iff.mpr wrong⟩
      rw [first, second]
    · intro denied same atom member holds type leftBinding rightBinding equality
      have hidden := sound.counted denied
      have key : runtimeKey catalog leftInputs rightInputs ⟨leftBinding, rightBinding⟩ ∈
          layoutKeys catalog leftInputs rightInputs condition kind := (keyed _).mpr ⟨atom, member, holds, type, _, _, equality, rfl⟩
      have present : ¬ (left leftBinding = none ∨ right rightBinding = none) := by
        intro missing
        apply Bool.eq_false_iff.mp hidden
        apply (unknown_iff _ .left left right).mpr
        refine ⟨?_, _, key, ?_⟩
        · intro other inside
          obtain ⟨atom, member, holds, type, leftBinding, rightBinding, equality, rfl⟩ := (keyed other).mp inside
          rw [left_probe, conjunct_key catalog leftInputs rightInputs left right equality, Ne, sql_equal_false]
          intro differs
          obtain ⟨one, other, isOne, isOther, wrong⟩ := differs
          rw [same atom member holds type _ _ equality one other isOne isOther] at wrong
          cases wrong
        · rw [left_probe, conjunct_key catalog leftInputs rightInputs left right equality, sql_equal_unknown]
          exact missing
      exact not_or.mp present
  · intro clear
    refine ⟨?_, ?_, ?_⟩
    · intro relevant key inside
      obtain ⟨atom, member, holds, type, leftBinding, rightBinding, equality, rfl⟩ := (keyed key).mp inside
      have truth := (conjunct_part catalog leftInputs rightInputs rest left right condition atom member).1 relevant
      rw [conjunct_truth catalog leftInputs rightInputs rest left right equality, Ne, sql_equal_false] at truth
      rw [conjunct_key catalog leftInputs rightInputs left right equality, Ne, sql_equal_false]
      intro differs
      obtain ⟨one, other, isOne, isOther, wrong⟩ := differs
      have agreed := clear.agreed relevant atom member holds type _ _ equality one other isOne isOther
      exact truth ⟨one, other, isOne, isOther, agreed.trans wrong⟩
    · intro hit key inside
      obtain ⟨atom, member, holds, type, leftBinding, rightBinding, equality, rfl⟩ := (keyed key).mp inside
      have truth := (conjunct_part catalog leftInputs rightInputs rest left right condition atom member).2 hit
      rw [conjunct_truth catalog leftInputs rightInputs rest left right equality, sql_equal_true] at truth
      obtain ⟨one, other, isOne, isOther, isTrue⟩ := truth
      rw [conjunct_key catalog leftInputs rightInputs left right equality, sql_equal_true]
      have agreed := clear.agreed (by rw [hit]; exact MatchTruth.noConfusion) atom member holds type _ _ equality one other isOne isOther
      exact ⟨one, other, isOne, isOther, agreed.symm.trans isTrue⟩
    · intro denied
      rw [Bool.eq_false_iff]
      intro some
      obtain ⟨compatible, key, inside, missing⟩ := (unknown_iff _ .left left right).mp some
      obtain ⟨atom, member, holds, type, leftBinding, rightBinding, equality, rfl⟩ := (keyed key).mp inside
      rw [left_probe, conjunct_key catalog leftInputs rightInputs left right equality, sql_equal_unknown] at missing
      have present := clear.decided denied (by
        intro atom member holds type leftBinding rightBinding equality one other isOne isOther
        have fits := compatible _ ((keyed _).mpr ⟨atom, member, holds, type, _, _, equality, rfl⟩)
        rw [left_probe, conjunct_key catalog leftInputs rightInputs left right equality, Ne, sql_equal_false] at fits
        by_contra wrong
        exact fits ⟨one, other, isOne, isOther, Bool.eq_false_iff.mpr wrong⟩) atom member holds type _ _ equality
      rcases missing with noLeft | noRight
      · exact present.1 noLeft
      · exact present.2 noRight

end

section

-- l.k = r.k AND l.v < r.v over integers.
def integerCatalog : OperatorCatalog Nat where
  opname := fun operatorOid => if operatorOid = 96 then "=" else "<"
  holds := fun operatorOid one other => if operatorOid = 96 then decide (one = other) else decide (one < other)
  equality := fun _ one other => decide (one = other)
  symmetric := fun _ _ _ => decide_eq_decide.mpr eq_comm

def integerSlot (binding : BindingId) (input : Nat) : InputSlot := ⟨binding, input, ⟨23, -1, 0, true⟩⟩

def keyAndBound : ScalarExpr :=
  .bool .and [.operator 96 [.input 1, .input 2] ⟨16, -1, 0, true⟩, .operator 97 [.input 3, .input 4] ⟨16, -1, 0, true⟩]

def lessThan (_ : ScalarExpr) (values : BoundRow Nat) : MatchTruth :=
  sqlEqual (fun one other => decide (one < other)) (values 3) (values 4)

-- A left row with a key, and a right row without one and with a lower value.
def keyedLeft (binding : BindingId) : Option Nat := if binding = 1 then some 5 else if binding = 3 then some 9 else none

def unkeyedRight (binding : BindingId) : Option Nat := if binding = 4 then some 1 else none

end

end Shiba.Join
