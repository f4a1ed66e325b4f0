import Shiba.Aggregate.RebuildPage
import Shiba.Library.Rounds

set_option autoImplicit false

namespace Shiba.Aggregate

open Shiba.Execution Lexicographic

variable {Expr Row Value : Type}

section Fold

variable (scalars : Scalars Expr Row Value) (aggregate : AggregateExpr Expr Value)

-- One transition, as PostgreSQL advances an aggregate: a strict one skips NULL
-- arguments, and without an initial value its first argument becomes the state.
def transitionOnce (state : Option Value × Bool) (arguments : List (Option Value)) : Option Value × Bool :=
  if aggregate.capability.transitionIsStrict then
    if arguments.all Option.isSome then
      if state.2 then (arguments.head?.join, false)
      else if state.1.isNone then state
      else (aggregate.capability.transitionFunction state.1 arguments, false)
    else state
  else (aggregate.capability.transitionFunction state.1 arguments, state.2)

def startState : Option Value × Bool :=
  (aggregate.capability.initialLiteral, aggregate.capability.transitionIsStrict && aggregate.capability.initialLiteral.isNone)

def foldRows (rows : List (BagRow Row)) : Option Value × Bool :=
  (rows.map (argumentsOf scalars aggregate)).foldl (transitionOnce aggregate) (startState aggregate)

def sameTuple (left right : BagRow Row) : Bool :=
  tupleEqual scalars aggregate (distinctColumns scalars aggregate left) (distinctColumns scalars aggregate right)

-- The rows that pass the filter, of equal DISTINCT tuples the first one.
def transitionedRows (rows : List (BagRow Row)) : List (BagRow Row) :=
  if aggregate.distinct.isEmpty then rows.filter (passes scalars aggregate)
  else Fetch.firsts (sameTuple scalars aggregate) (rows.filter (passes scalars aggregate))

-- A state without a value waits for the first argument of a strict transition.
def Awaits (state : Option Value × Bool) : Prop :=
  state.2 = true → aggregate.capability.transitionIsStrict = true ∧ aggregate.capability.initialLiteral = none

variable (rows : List (BagRow Row)) (state : Option Value × Bool)

theorem transition_awaits (arguments : List (Option Value)) (awaits : Awaits aggregate state) :
    Awaits aggregate (transitionOnce aggregate state arguments) := by
  unfold transitionOnce
  by_cases strict : aggregate.capability.transitionIsStrict = true
  · rw [if_pos strict]
    by_cases whole : arguments.all Option.isSome = true
    · rw [if_pos whole]
      by_cases waits : state.2 = true
      · rw [if_pos waits]
        intro wrong
        cases wrong
      · rw [if_neg waits]
        by_cases isNone : state.1.isNone = true
        · rw [if_pos isNone]
          exact awaits
        · rw [if_neg isNone]
          intro wrong
          cases wrong
    · rw [if_neg whole]
      exact awaits
  · rw [if_neg strict]
    exact awaits

theorem fold_awaits : Awaits aggregate (foldRows scalars aggregate rows) := by
  rw [foldRows]
  induction rows using List.reverseRecOn with
  | nil =>
      intro waits
      change (aggregate.capability.transitionIsStrict && aggregate.capability.initialLiteral.isNone) = true at waits
      rw [Bool.and_eq_true, Option.isNone_iff_eq_none] at waits
      exact waits
  | append_singleton rows row ih =>
      rw [List.map_append, List.foldl_append]
      exact transition_awaits aggregate _ _ ih

theorem fold_append_one (row : BagRow Row) :
    foldRows scalars aggregate (rows ++ [row]) =
      transitionOnce aggregate (foldRows scalars aggregate rows) (argumentsOf scalars aggregate row) := by
  rw [foldRows, List.map_append, List.foldl_append]
  rfl

theorem next_state (item : Prepared Row) (awaits : Awaits aggregate state) :
    nextState scalars aggregate state item =
      if item.applyTransition then transitionOnce aggregate state (argumentsOf scalars aggregate item.occurrence.row) else state := by
  obtain ⟨value, waits⟩ := state
  unfold nextState transitionOnce
  simp only
  by_cases strict : aggregate.capability.transitionIsStrict = true
  · rw [if_pos strict, if_pos strict]
    cases item.applyTransition with
    | false => rfl
    | true =>
        by_cases whole : (argumentsOf scalars aggregate item.occurrence.row).all Option.isSome = true
        · cases waits with
          | false =>
              rw [whole]
              cases value with
              | none => rw [Bool.and_false]; rfl
              | some value => rw [Bool.and_false]; rfl
          | true =>
              rw [whole, (awaits rfl).2]
              rfl
        · rw [Bool.not_eq_true] at whole
          rw [whole]
          rfl
  · rw [if_neg strict, if_neg strict]
    have quiet : waits = false := by
      cases waits with
      | false => rfl
      | true => exact absurd (awaits rfl).1 strict
    rw [quiet]
    cases item.applyTransition <;> rfl

end Fold

section Tuples

variable (scalars : Scalars Expr Row Value) (aggregate : AggregateExpr Expr Value)

theorem columns_equal (keys : List (SortGroupExpr Expr)) (left right : BagRow Row) :
    ((keys.zip ((keys.map fun key => scalars.value key.expr left.rowValue).zip
        (keys.map fun key => scalars.value key.expr right.rowValue))).all fun pair =>
          (scalars.resolveBtree pair.1).equals pair.2.1 pair.2.2) =
      keysEqual (keys.map fun key => keyColumn scalars key) left right := by
  induction keys with
  | nil => rfl
  | cons key keys ih =>
      rw [List.map_cons, List.map_cons, List.zip_cons_cons, List.zip_cons_cons, List.all_cons, ih]
      rfl

theorem same_tuple_keys (left right : BagRow Row) :
    sameTuple scalars aggregate left right =
      keysEqual (aggregate.distinct.map fun key => keyColumn scalars key) left right :=
  columns_equal scalars aggregate.distinct left right

theorem same_tuple_self (row : BagRow Row) : sameTuple scalars aggregate row row = true := by
  rw [same_tuple_keys]
  exact keys_equal_self _ row

theorem same_tuple_symm (left right : BagRow Row) : sameTuple scalars aggregate left right = sameTuple scalars aggregate right left := by
  rw [same_tuple_keys, same_tuple_keys]
  exact keys_equal_symm _ left right

theorem same_tuple_trans (first second third : BagRow Row) (one : sameTuple scalars aggregate first second = true)
    (other : sameTuple scalars aggregate second third = true) : sameTuple scalars aggregate first third = true := by
  rw [same_tuple_keys, keysEqual, List.all_eq_true] at one other ⊢
  intro key member
  have near := one key member
  have far := other key member
  rw [equals_tied] at near far ⊢
  rw [tied_congr (precedes_weak key) first second third near]
  exact far

theorem equals_of_same [DecidableEq Expr] {one other : SortGroupExpr Expr} (same : aggregateSameValue one other = true)
    (left right : BagRow Row) :
    (keyColumn scalars one).equals ((keyColumn scalars one).column left) ((keyColumn scalars one).column right) =
      (keyColumn scalars other).equals ((keyColumn scalars other).column left) ((keyColumn scalars other).column right) := by
  rw [aggregateSameValue, Bool.and_eq_true, Bool.and_eq_true, decide_eq_true_eq, decide_eq_true_eq, decide_eq_true_eq] at same
  obtain ⟨⟨expr, _⟩, operator⟩ := same
  have equality : (scalars.resolveBtree one).equalityOperator = (scalars.resolveBtree other).equalityOperator := by
    rw [scalars.resolvedEquality, scalars.resolvedEquality, operator]
  change (scalars.resolveBtree one).equals (scalars.value one.expr left.rowValue) (scalars.value one.expr right.rowValue) =
    (scalars.resolveBtree other).equals (scalars.value other.expr left.rowValue) (scalars.value other.expr right.rowValue)
  unfold BtreeOrder.equals
  rw [expr, equality]

theorem filter_indexed {α : Type} (keep : α → Bool) (items : List α) :
    ((items.zipIdx.filter fun item => keep item.1).map Prod.fst) = items.filter keep := by
  have mapped := List.filter_map (f := Prod.fst) (p := keep) (l := items.zipIdx)
  rw [List.zipIdx_map_fst] at mapped
  exact mapped.symm

theorem effective_expressions [DecidableEq Expr] {ordinal : Nat} {keys : List (AggregateOrderKey Expr)}
    (accepted : aggregateEffectiveOrder ordinal aggregate = .ok keys) :
    keys.map AggregateOrderKey.expression =
      aggregate.orderBy ++ aggregate.distinct.filter fun distinct =>
        !aggregate.orderBy.any fun order => aggregateSameValue order distinct := by
  obtain ⟨_, built⟩ := refuse_bind_ok.mp accepted
  have built := Except.ok.inj built
  rw [← built, List.map_append, List.map_map, List.map_map,
    ← filter_indexed (fun distinct => !aggregate.orderBy.any fun order => aggregateSameValue order distinct)]
  congr 1
  exact List.zipIdx_map_fst 0 aggregate.orderBy

-- Under an accepted order the rows of one tuple are those whose keys are all equal.
theorem effective_tuple [DecidableEq Expr] (ordinal : Nat) (keys : List (AggregateOrderKey Expr))
    (accepted : aggregateEffectiveOrder ordinal aggregate = .ok keys) (tuples : aggregate.distinct.isEmpty = false)
    (left right : BagRow Row) :
    keysEqual (rebuildColumns scalars keys) left right = sameTuple scalars aggregate left right := by
  obtain ⟨covered, _⟩ := refuse_bind_ok.mp accepted
  rw [tuples, Bool.not_false, Bool.true_and, List.any_eq_false] at covered
  have columns : (rebuildColumns scalars keys : List (KeyColumn (BagRow Row) Value)) =
      (keys.map AggregateOrderKey.expression).map (keyColumn scalars) := by
    rw [rebuildColumns, List.map_map]
    rfl
  rw [columns, effective_expressions aggregate accepted, same_tuple_keys, Bool.eq_iff_iff, keysEqual, keysEqual,
    List.all_map, List.all_map, List.all_eq_true, List.all_eq_true]
  constructor
  · intro equal distinct listed
    by_cases ordered : (aggregate.orderBy.any fun order => aggregateSameValue order distinct) = true
    · obtain ⟨order, member, same⟩ := List.any_eq_true.mp ordered
      have here := equal order (List.mem_append_left _ member)
      rw [Function.comp_apply, equals_of_same scalars same] at here
      exact here
    · apply equal distinct
      rw [Bool.not_eq_true] at ordered
      exact List.mem_append_right _ (List.mem_filter.mpr ⟨listed, by rw [ordered]; rfl⟩)
  · intro equal key member
    rcases List.mem_append.mp member with ordered | distinct
    · have some := covered key ordered
      rw [Bool.not_eq_true', Bool.not_eq_false, List.any_eq_true] at some
      obtain ⟨distinct, listed, same⟩ := some
      have here := equal distinct listed
      rw [Function.comp_apply, ← equals_of_same scalars same] at here
      exact here
    · exact equal key (List.mem_filter.mp distinct).1

-- Some row that passed the filter has the row's tuple.
def Touched (rows : List (BagRow Row)) (row : BagRow Row) : Bool :=
  rows.any fun other => passes scalars aggregate other && sameTuple scalars aggregate row other

-- What the windows of a page should say of each copy, from all rows before it.
def flagsFrom (rows : List (BagRow Row)) : List (Occurrence Row) → List (Prepared Row)
  | [] => []
  | occurrence :: rest =>
      ⟨occurrence, passes scalars aggregate occurrence.row && !Touched scalars aggregate rows occurrence.row,
        Touched scalars aggregate (rows ++ [occurrence.row]) occurrence.row⟩ ::
        flagsFrom (rows ++ [occurrence.row]) rest

-- The DISTINCT cursor stands on the tuple of the last row that was read.
def TupleAt (work : WorkRow Value) (rows : List (BagRow Row)) : Prop :=
  match rows.getLast? with
  | none => work.hasDistinctCursor = false ∧ work.distinctTransitioned = false
  | some last =>
      work.hasDistinctCursor = true ∧ work.cursorDistinct = distinctColumns scalars aggregate last ∧
        work.distinctTransitioned = Touched scalars aggregate rows last

variable {aggregate}

variable (rows : List (BagRow Row)) {keys : List (AggregateOrderKey Expr)}

theorem touched_append_one (row : BagRow Row) :
    Touched scalars aggregate (rows ++ [row]) row = (Touched scalars aggregate rows row || passes scalars aggregate row) := by
  rw [Touched, List.any_append, List.any_cons, List.any_nil, Bool.or_false, same_tuple_self, Bool.and_true]
  rfl

theorem touched_congr (first second : BagRow Row) (same : sameTuple scalars aggregate first second = true) :
    Touched scalars aggregate rows first = Touched scalars aggregate rows second := by
  unfold Touched
  congr 1
  funext other
  have both : sameTuple scalars aggregate first other = sameTuple scalars aggregate second other := by
    rw [Bool.eq_iff_iff]
    constructor
    · intro tie
      rw [same_tuple_symm] at same
      exact same_tuple_trans scalars aggregate second first other same tie
    · intro tie
      exact same_tuple_trans scalars aggregate first second other same tie
  rw [both]

-- Rows of one tuple stand together, so a new tuple was never read before.
theorem untouched_new
    (effective : ∀ left right, keysEqual (rebuildColumns scalars keys) left right = sameTuple scalars aggregate left right)
    {rows : List (BagRow Row)} {row : BagRow Row}
    (ordered : (rows ++ [row]).Pairwise fun a b => orderBefore BagRow.rowId (rebuildColumns scalars keys) a b = true)
    (starts : ∀ last, rows.getLast? = some last → sameTuple scalars aggregate row last = false) :
    Touched scalars aggregate rows row = false := by
  rw [Touched, List.any_eq_false]
  intro other member wrong
  rw [Bool.and_eq_true] at wrong
  cases ends : rows.getLast? with
  | none =>
      rw [List.getLast?_eq_none_iff.mp ends] at member
      cases member
  | some last =>
      have fresh := starts last ends
      obtain ⟨front, split⟩ := List.getLast?_eq_some_iff.mp ends
      rw [split] at member ordered
      rcases List.mem_append.mp member with earlier | final
      · rw [List.append_assoc, List.pairwise_append, List.singleton_append, List.pairwise_cons] at ordered
        have first := ordered.2.2 other earlier last List.mem_cons_self
        have second := ordered.2.1.1 row List.mem_cons_self
        have between := keys_equal_between (rebuildColumns scalars keys) first second (by rw [effective]; exact wrong.2)
        rw [effective] at between
        rw [same_tuple_trans scalars aggregate row other last wrong.2 (by rw [same_tuple_symm]; exact between)] at fresh
        cases fresh
      · rw [List.mem_singleton.mp final] at wrong
        rw [wrong.2] at fresh
        cases fresh

-- A row starts a tuple unless the row read before it has the same one, on this page or
-- on the page before.
theorem starts_tuple (work : WorkRow Value) (consumed done : List (BagRow Row)) (held : TupleAt scalars aggregate work consumed)
    (row : BagRow Row) :
    startsTuple scalars aggregate work done.getLast? row =
      !((consumed ++ done).getLast?).any fun last => sameTuple scalars aggregate row last := by
  cases ends : done.getLast? with
  | some last =>
      obtain ⟨front, split⟩ := List.getLast?_eq_some_iff.mp ends
      rw [split, ← List.append_assoc, List.getLast?_append, List.getLast?_singleton]
      rfl
  | none =>
      rw [List.getLast?_eq_none_iff.mp ends, List.append_nil]
      rw [TupleAt] at held
      cases stored : consumed.getLast? with
      | none =>
          rw [stored] at held
          rw [startsTuple, held.1]
          rfl
      | some last =>
          rw [stored] at held
          rw [startsTuple, held.1, held.2.1]
          rfl

theorem prepared_flags
    (effective : ∀ left right, keysEqual (rebuildColumns scalars keys) left right = sameTuple scalars aggregate left right)
    {work : WorkRow Value} {consumed : List (BagRow Row)} (held : TupleAt scalars aggregate work consumed)
    (rest : List (Occurrence Row)) (done : List (BagRow Row)) (before : List (Segmented Row)) (ordinal : Nat)
    (ordered : ((consumed ++ done) ++ rest.map Occurrence.row).Pairwise
      fun a b => orderBefore BagRow.rowId (rebuildColumns scalars keys) a b = true)
    (numbered : ∀ other ∈ before, other.tupleOrdinal ≤ ordinal)
    (current : ((decide (ordinal = 0) && work.distinctTransitioned) ||
        (before.filter fun other => decide (other.tupleOrdinal = ordinal)).any Segmented.passesFilter) =
      ((consumed ++ done).getLast?).any (Touched scalars aggregate (consumed ++ done))) :
    preparedFrom work.distinctTransitioned before (segmented scalars aggregate work done.getLast? ordinal rest) =
      flagsFrom scalars aggregate (consumed ++ done) rest := by
  induction rest generalizing done before ordinal with
  | nil => rfl
  | cons occurrence rest ih =>
      have starts := starts_tuple scalars work consumed done held occurrence.row
      generalize rows : consumed ++ done = read at *
      generalize numberedNow : ordinal + (startsTuple scalars aggregate work done.getLast? occurrence.row).toNat = number
      have grows : ordinal ≤ number := by omega
      have nowOrdered : (read ++ [occurrence.row]).Pairwise
          fun a b => orderBefore BagRow.rowId (rebuildColumns scalars keys) a b = true := by
        apply List.Pairwise.sublist _ ordered
        rw [List.map_cons]
        exact List.Sublist.append_left (List.singleton_sublist.mpr List.mem_cons_self) read
      have touched : ((decide (number = 0) && work.distinctTransitioned) ||
          (before.filter fun other => decide (other.tupleOrdinal = number)).any Segmented.passesFilter) =
            Touched scalars aggregate read occurrence.row := by
        by_cases tie : (read.getLast?.any fun last => sameTuple scalars aggregate occurrence.row last) = true
        · rw [tie, Bool.not_true] at starts
          rw [starts] at numberedNow
          have same : ordinal = number := numberedNow
          rw [← same, current]
          cases ends : read.getLast? with
          | none =>
              rw [ends] at tie
              cases tie
          | some last =>
              rw [ends] at tie
              exact (touched_congr scalars read occurrence.row last tie).symm
        · rw [Bool.not_eq_true] at tie
          rw [tie, Bool.not_false] at starts
          rw [starts] at numberedNow
          have next : ordinal + 1 = number := numberedNow
          have none : (before.filter fun other => decide (other.tupleOrdinal = number)) = [] := by
            rw [List.filter_eq_nil_iff]
            intro other member wrong
            have bound := numbered other member
            have equal := of_decide_eq_true wrong
            omega
          rw [none, decide_eq_false (by omega), Bool.false_and, Bool.false_or, List.any_nil]
          symm
          apply untouched_new scalars effective nowOrdered
          intro last ends
          rw [ends] at tie
          exact tie
      have segment : segmented scalars aggregate work done.getLast? ordinal (occurrence :: rest) =
          ⟨occurrence, passes scalars aggregate occurrence.row, number⟩ ::
            segmented scalars aggregate work (some occurrence.row) number rest := by
        rw [← numberedNow]
        rfl
      have later := ih (done ++ [occurrence.row]) (before ++ [⟨occurrence, passes scalars aggregate occurrence.row, number⟩])
        number (by
          rw [← List.append_assoc, rows, List.append_assoc]
          exact ordered) (by
          intro other member
          rcases List.mem_append.mp member with earlier | here
          · exact Nat.le_trans (numbered other earlier) grows
          · rw [List.mem_singleton.mp here]) (by
          rw [← List.append_assoc, rows, List.getLast?_append, List.getLast?_singleton, List.filter_append, List.any_append,
            ← Bool.or_assoc, touched]
          simp only [List.filter_cons, decide_true, if_true, List.filter_nil, List.any_cons, List.any_nil, Bool.or_false]
          exact (touched_append_one scalars read occurrence.row).symm)
      rw [List.getLast?_append, List.getLast?_singleton, ← List.append_assoc, rows] at later
      have counted : decide ((before.filter fun other => decide (other.tupleOrdinal = number)).countP Segmented.passesFilter = 0) =
          !(before.filter fun other => decide (other.tupleOrdinal = number)).any Segmented.passesFilter := by
        rw [Bool.eq_iff_iff, decide_eq_true_eq, List.countP_eq_zero, Bool.not_eq_true', List.any_eq_false]
      rw [segment, preparedFrom, flagsFrom]
      change Prepared.mk occurrence (passes scalars aggregate occurrence.row && !(decide (number = 0) && work.distinctTransitioned) &&
          decide (_ = 0)) ((decide (number = 0) && work.distinctTransitioned) || (_ ++ [_]).any Segmented.passesFilter) ::
            preparedFrom _ _ (segmented scalars aggregate work (some occurrence.row) number rest) = _
      rw [counted, touched_append_one, ← touched, List.any_append, List.any_cons, List.any_nil, Bool.or_false, Bool.not_or,
        Bool.and_assoc, Bool.or_assoc]
      congr 1

end Tuples

section Pages

variable (scalars : Scalars Expr Row Value) (aggregate : AggregateExpr Expr Value)

section

variable (rows : List (BagRow Row))

theorem flags_append (first second : List (Occurrence Row)) :
    flagsFrom scalars aggregate rows (first ++ second) =
      flagsFrom scalars aggregate rows first ++ flagsFrom scalars aggregate (rows ++ first.map Occurrence.row) second := by
  induction first generalizing rows with
  | nil => rw [List.map_nil, List.append_nil]; rfl
  | cons occurrence rest ih =>
      rw [List.cons_append, flagsFrom, ih, flagsFrom, List.cons_append, List.map_cons, List.append_assoc]
      rfl

-- What the next row adds to the rows that are transitioned.
theorem transitioned_append_one (row : BagRow Row) :
    transitionedRows scalars aggregate (rows ++ [row]) =
      if passes scalars aggregate row && (aggregate.distinct.isEmpty || !Touched scalars aggregate rows row) then
        transitionedRows scalars aggregate rows ++ [row]
      else transitionedRows scalars aggregate rows := by
  rw [transitionedRows, transitionedRows]
  by_cases tuples : aggregate.distinct.isEmpty = true
  · rw [if_pos tuples, if_pos tuples, tuples, Bool.true_or, Bool.and_true, List.filter_append]
    by_cases keeps : passes scalars aggregate row = true
    · rw [if_pos keeps, List.filter_cons_of_pos keeps, List.filter_nil]
    · rw [if_neg keeps, List.filter_cons_of_neg keeps, List.filter_nil, List.append_nil]
  · rw [if_neg tuples, if_neg tuples, Bool.eq_false_iff.mpr tuples, Bool.false_or, List.filter_append]
    by_cases keeps : passes scalars aggregate row = true
    · have touched : (rows.filter (passes scalars aggregate)).any (sameTuple scalars aggregate row) =
          Touched scalars aggregate rows row := by
        rw [List.any_filter]
        rfl
      rw [List.filter_cons_of_pos keeps, List.filter_nil, keeps, Bool.true_and,
        Fetch.firsts_append_one _ (same_tuple_trans scalars aggregate), touched]
      cases Touched scalars aggregate rows row <;> rfl
    · rw [List.filter_cons_of_neg keeps, List.filter_nil, List.append_nil, Bool.eq_false_iff.mpr keeps, Bool.false_and]
      rfl

theorem fold_next (item : Prepared Row) (applies : item.applyTransition = (passes scalars aggregate item.occurrence.row &&
      (aggregate.distinct.isEmpty || !Touched scalars aggregate rows item.occurrence.row))) :
    nextState scalars aggregate (foldRows scalars aggregate (transitionedRows scalars aggregate rows)) item =
      foldRows scalars aggregate (transitionedRows scalars aggregate (rows ++ [item.occurrence.row])) := by
  rw [next_state scalars aggregate _ _ (fold_awaits scalars aggregate _), transitioned_append_one, applies]
  by_cases applied : (passes scalars aggregate item.occurrence.row &&
      (aggregate.distinct.isEmpty || !Touched scalars aggregate rows item.occurrence.row)) = true
  · rw [if_pos applied, if_pos applied, fold_append_one]
  · rw [if_neg applied, if_neg applied]

end

theorem fold_every (plain : aggregate.distinct.isEmpty = true) (rows : List (BagRow Row)) (page : List (Occurrence Row)) :
    (page.map fun occurrence => (⟨occurrence, passes scalars aggregate occurrence.row, false⟩ : Prepared Row)).foldl
        (nextState scalars aggregate) (foldRows scalars aggregate (transitionedRows scalars aggregate rows)) =
      foldRows scalars aggregate (transitionedRows scalars aggregate (rows ++ page.map Occurrence.row)) := by
  induction page generalizing rows with
  | nil => rw [List.map_nil, List.map_nil, List.append_nil]; rfl
  | cons occurrence rest ih =>
      rw [List.map_cons, List.foldl_cons, fold_next, ih, List.map_cons, List.append_assoc]
      · rfl
      · rw [plain, Bool.true_or, Bool.and_true]

theorem fold_tuples (tuples : aggregate.distinct.isEmpty = false) (rows : List (BagRow Row)) (page : List (Occurrence Row)) :
    (flagsFrom scalars aggregate rows page).foldl
        (nextState scalars aggregate) (foldRows scalars aggregate (transitionedRows scalars aggregate rows)) =
      foldRows scalars aggregate (transitionedRows scalars aggregate (rows ++ page.map Occurrence.row)) := by
  induction page generalizing rows with
  | nil => rw [List.map_nil, List.append_nil]; rfl
  | cons occurrence rest ih =>
      rw [flagsFrom, List.foldl_cons, fold_next, ih, List.map_cons, List.append_assoc]
      · rfl
      · rw [tuples, Bool.false_or]

end Pages

-- The settings are integers.
def Settings (budget : WorkBudget) : Prop := budget.maxInputRows < bigintMax ∧ budget.maxInputBytes ≤ bigintMax

section Rebuild

variable (scalars : Scalars Expr Row Value) (aggregate : AggregateExpr Expr Value) (keys : List (AggregateOrderKey Expr))
  (bag : GroupBag Row)

-- The work row after some of the copies were read.
structure Rebuilt (read : List (Occurrence Row)) (work : WorkRow Value) : Prop where
  folded : (work.transitionState, work.noTransValue) =
    foldRows scalars aggregate (transitionedRows scalars aggregate (read.map Occurrence.row))
  cursor : CursorAt scalars aggregate keys work read.getLast?
  tuple : aggregate.distinct.isEmpty = false → TupleAt scalars aggregate work (read.map Occurrence.row)

theorem rebuilt_start (work : Option (WorkRow Value)) (finished : ∀ old, work = some old → old.complete = true) :
    ∃ started, initializeWork aggregate work = some started ∧ started.complete = false ∧
      Rebuilt scalars aggregate keys [] started := by
  have empty : foldRows scalars aggregate (transitionedRows scalars aggregate ([] : List (BagRow Row))) = startState aggregate := by
    rw [transitionedRows, List.filter_nil]
    cases aggregate.distinct.isEmpty <;> rfl
  cases work with
  | none => exact ⟨_, rfl, rfl, empty.symm, ⟨rfl, rfl⟩, fun _ => ⟨rfl, rfl⟩⟩
  | some old =>
      rw [initializeWork, if_pos (finished old rfl)]
      exact ⟨_, rfl, rfl, empty.symm, ⟨rfl, rfl⟩, fun _ => ⟨rfl, rfl⟩⟩

theorem tuple_units (tuples : aggregate.distinct.isEmpty = false) :
    (rebuildUnits scalars aggregate keys bag).map Occurrence.row = orderedRows scalars keys bag := by
  rw [rebuildUnits]
  induction orderedRows scalars keys bag with
  | nil => rfl
  | cons row rest ih =>
      have single : copiesOf aggregate row = 1 := by
        rw [copiesOf, tuples]
        rfl
      rw [units_cons, single, List.map_append, ih]
      rfl

theorem every_units (plain : aggregate.distinct.isEmpty = true) :
    (rebuildUnits scalars aggregate keys bag).map Occurrence.row =
      Fetch.copies BagRow.multiplicity (orderedRows scalars keys bag) := by
  rw [rebuildUnits]
  induction orderedRows scalars keys bag with
  | nil => rfl
  | cons row rest ih =>
      have many : copiesOf aggregate row = row.multiplicity := by
        rw [copiesOf, if_pos plain]
      rw [units_cons, many, List.map_append, ih, List.map_map, Fetch.copies_cons]
      congr 1
      exact List.map_const' ▸ (by rw [List.length_range])

variable [DecidableEq Expr] (ordinal : Nat) (accepted : aggregateEffectiveOrder ordinal aggregate = .ok keys)

include accepted

theorem prepared_items (read later page : List (Occurrence Row)) (work : WorkRow Value)
    (split : rebuildUnits scalars aggregate keys bag = read ++ later) (chosen : page.IsPrefix later)
    (rebuilt : Rebuilt scalars aggregate keys read work) :
    prepared scalars aggregate work page =
      if aggregate.distinct.isEmpty then page.map fun occurrence => ⟨occurrence, passes scalars aggregate occurrence.row, false⟩
      else flagsFrom scalars aggregate (read.map Occurrence.row) page := by
  rw [prepared]
  by_cases plain : aggregate.distinct.isEmpty = true
  · rw [if_pos plain, if_pos plain]
  · rw [if_neg plain, if_neg plain]
    rw [Bool.not_eq_true] at plain
    have held := rebuilt.tuple plain
    have effective := effective_tuple scalars aggregate ordinal keys accepted plain
    have ordered := ordered_strict scalars keys bag
    obtain ⟨rest, whole⟩ := chosen
    rw [← tuple_units scalars aggregate keys bag plain, split, ← whole, List.map_append, List.map_append, ← List.append_assoc] at ordered
    have flags := prepared_flags scalars effective held page [] [] 0 (by
        rw [List.append_nil]
        exact (List.pairwise_append.mp ordered).1)
      (fun other member => absurd member List.not_mem_nil)
      (by
        rw [List.append_nil, List.filter_nil, List.any_nil, Bool.or_false, decide_eq_true rfl, Bool.true_and]
        rw [TupleAt] at held
        cases ends : (read.map Occurrence.row).getLast? with
        | none =>
            rw [ends] at held
            exact held.2
        | some last =>
            rw [ends] at held
            exact held.2.2)
    rw [List.append_nil] at flags
    exact flags

section

variable (columns : List (KeyColumn (BagRow Row) Value)) (items : List (Prepared Row)) (complete : Bool)
  (work : WorkRow Value)

omit [DecidableEq Expr] accepted in
theorem updated_complete : (updatedWork scalars aggregate columns items complete work).complete = complete := by
  unfold updatedWork
  cases items.getLast? with
  | none => rfl
  | some last => cases aggregate.distinct.isEmpty <;> rfl

omit [DecidableEq Expr] accepted in
theorem updated_state :
    ((updatedWork scalars aggregate columns items complete work).transitionState,
      (updatedWork scalars aggregate columns items complete work).noTransValue) =
        items.foldl (nextState scalars aggregate) (work.transitionState, work.noTransValue) := by
  unfold updatedWork
  cases items.getLast? with
  | none => rfl
  | some last => cases aggregate.distinct.isEmpty <;> rfl

-- The update after some more copies were read.
theorem updated_rebuilt {read later page : List (Occurrence Row)} {work : WorkRow Value}
    (split : rebuildUnits scalars aggregate keys bag = read ++ later) (chosen : page.IsPrefix later)
    (rebuilt : Rebuilt scalars aggregate keys read work) :
    Rebuilt scalars aggregate keys (read ++ page)
      (updatedWork scalars aggregate (rebuildColumns scalars keys) (prepared scalars aggregate work page) complete work) := by
  have items := prepared_items scalars aggregate keys bag ordinal accepted read later page work split chosen rebuilt
  have folded : ((updatedWork scalars aggregate (rebuildColumns scalars keys) (prepared scalars aggregate work page) complete
      work).transitionState, (updatedWork scalars aggregate (rebuildColumns scalars keys) (prepared scalars aggregate work page)
        complete work).noTransValue) =
          foldRows scalars aggregate (transitionedRows scalars aggregate ((read ++ page).map Occurrence.row)) := by
    rw [updated_state, rebuilt.folded, items, List.map_append]
    cases plain : aggregate.distinct.isEmpty with
    | true => exact fold_every scalars aggregate plain (read.map Occurrence.row) page
    | false => exact fold_tuples scalars aggregate plain (read.map Occurrence.row) page
  cases page using List.reverseRecOn with
  | nil =>
      have none : prepared scalars aggregate work ([] : List (Occurrence Row)) = [] := by
        rw [items]
        cases aggregate.distinct.isEmpty <;> rfl
      rw [List.append_nil] at folded ⊢
      refine ⟨folded, ?_, ?_⟩
      · rw [none]
        exact rebuilt.cursor
      · intro tuples
        rw [none]
        exact rebuilt.tuple tuples
  | append_singleton front last =>
      obtain ⟨item, ends, same, touched⟩ : ∃ item, (prepared scalars aggregate work (front ++ [last])).getLast? = some item ∧
          item.occurrence = last ∧ (aggregate.distinct.isEmpty = false →
            item.tupleTransitioned = Touched scalars aggregate ((read ++ (front ++ [last])).map Occurrence.row) last.row) := by
        rw [items]
        by_cases plain : aggregate.distinct.isEmpty = true
        · rw [if_pos plain, List.map_append, List.getLast?_append]
          refine ⟨_, rfl, rfl, ?_⟩
          intro wrong
          rw [plain] at wrong
          cases wrong
        · rw [if_neg plain, flags_append, List.getLast?_append]
          refine ⟨_, rfl, rfl, ?_⟩
          intro _
          rw [List.map_append, List.map_append, ← List.append_assoc]
          rfl
      refine ⟨folded, ?_, ?_⟩
      · rw [← List.append_assoc, List.getLast?_append, List.getLast?_singleton]
        unfold updatedWork
        rw [ends]
        change CursorAt scalars aggregate keys _ (some last)
        simp only [same, CursorAt]
        cases aggregate.distinct.isEmpty <;> exact ⟨rfl, rfl, rfl, rfl⟩
      · intro tuples
        have closed : ((read ++ (front ++ [last])).map Occurrence.row).getLast? = some last.row := by
          rw [← List.append_assoc, List.map_append, List.getLast?_append]
          rfl
        rw [TupleAt, closed]
        unfold updatedWork
        rw [ends]
        simp only [same, tuples, Bool.false_eq_true, if_false]
        exact ⟨trivial, trivial, touched tuples⟩

end

-- A page reads the next copies as far as the budget allows, folds them, and is complete
-- iff nothing follows.
theorem rebuild_page (budget : WorkBudget) (settings : Settings budget) (read later : List (Occurrence Row)) (work : WorkRow Value)
    (split : rebuildUnits scalars aggregate keys bag = read ++ later) (rebuilt : Rebuilt scalars aggregate keys read work)
    (going : work.complete = false) :
    ∃ primitive after count, aggregateRebuildPage scalars aggregate keys bag.rows (some work) budget = .ok (primitive, after) ∧
      Rebuilt scalars aggregate keys (read ++ later.take count) after ∧ (later ≠ [] → 0 < count) ∧
      (after.complete = true ↔ later.length ≤ count) := by
  obtain ⟨count, selected, filled, whole⟩ := Portions.page_prefix
    (fun occurrence : Occurrence Row => scalars.effectRowBytes occurrence.row.rowValue) later
    budget.maxInputBytes budget.inputRowsPositive
  have source := source_behind scalars aggregate keys bag work going read later split rebuilt.cursor (budget.maxInputRows + 1)
  have page : selectedPage scalars budget.maxInputRows budget.maxInputBytes (later.take (budget.maxInputRows + 1)) =
      later.take count := by
    rw [selectedPage, List.take_take, Nat.min_eq_left (Nat.le_succ _)]
    exact selected
  have complete : (later.take (budget.maxInputRows + 1)).length = (later.take count).length ↔ later.length ≤ count := by
    have rows := whole.1
    rw [List.length_take] at rows
    rw [List.length_take, List.length_take]
    omega
  have argument : (aggregate.capability.transitionIsStrict && aggregate.capability.initialLiteral.isNone && aggregate.args.isEmpty) =
      false := by
    by_contra wrong
    rw [Bool.not_eq_false, Bool.and_eq_true, Bool.and_eq_true, Option.isNone_iff_eq_none, List.isEmpty_iff] at wrong
    have one := aggregate.capability.started wrong.1.1 wrong.1.2
    rw [← aggregate.counted, wrong.2] at one
    cases one
  have rowsFit : decide (bigintMax < budget.maxInputRows) = false := decide_eq_false (by have limit := settings.1; omega)
  have rowsRaw : decide (budget.maxInputRows = bigintMax) = false := decide_eq_false (by have limit := settings.1; omega)
  have bytesFit : decide (bigintMax < budget.maxInputBytes) = false := decide_eq_false (by have limit := settings.2; omega)
  unfold aggregateRebuildPage
  rw [argument, rowsFit, rowsRaw, bytesFit]
  simp only [not_refused, ok_bind]
  rw [source, page]
  refine ⟨_, _, count, rfl, ?_, filled, ?_⟩
  · exact updated_rebuilt scalars aggregate keys bag ordinal accepted _ split (List.take_prefix _ _) rebuilt
  · rw [updated_complete, decide_eq_true_eq]
    exact complete

def rebuildStep (work : WorkRow Value) (budget : WorkBudget) : Except Fault (WorkRow Value) :=
  (aggregateRebuildPage scalars aggregate keys bag.rows (some work) budget).map Prod.snd

-- The bag's rows as often as they are there, in the order of the keys and the row id.
def expandedRows : List (BagRow Row) := Fetch.copies BagRow.multiplicity (orderedRows scalars keys bag)

omit [DecidableEq Expr] accepted in
theorem transitioned_units :
    transitionedRows scalars aggregate ((rebuildUnits scalars aggregate keys bag).map Occurrence.row) =
      transitionedRows scalars aggregate (expandedRows scalars keys bag) := by
  cases plain : aggregate.distinct.isEmpty with
  | true => rw [every_units scalars aggregate keys bag plain, expandedRows]
  | false =>
      rw [tuple_units scalars aggregate keys bag plain, expandedRows, transitionedRows, transitionedRows, plain,
        if_neg Bool.false_ne_true, if_neg Bool.false_ne_true]
      exact (Fetch.firsts_copies BagRow.multiplicity _ (same_tuple_self scalars aggregate) (same_tuple_trans scalars aggregate)
        (orderedRows scalars keys bag) (fun row member => bag.positive row ((ordered_mem scalars keys bag row).mp member))
        (passes scalars aggregate)).1.symm

-- Some of the copies were read, and all of them where the work is complete.
def Reading (work : WorkRow Value) : Prop :=
  ∃ read later, rebuildUnits scalars aggregate keys bag = read ++ later ∧ Rebuilt scalars aggregate keys read work ∧
    (work.complete = true → later = [])

theorem rebuild_step {budget : WorkBudget} (settings : Settings budget) {read later : List (Occurrence Row)} {work : WorkRow Value}
    (split : rebuildUnits scalars aggregate keys bag = read ++ later) (rebuilt : Rebuilt scalars aggregate keys read work)
    (going : work.complete = false) :
    ∃ after page rest, rebuildStep scalars aggregate keys bag work budget = .ok after ∧ later = page ++ rest ∧
      Rebuilt scalars aggregate keys (read ++ page) after ∧ (after.complete = true ↔ rest = []) ∧
      (later ≠ [] → rest.length < later.length) := by
  obtain ⟨primitive, after, count, ran, next, filled, complete⟩ :=
    rebuild_page scalars aggregate keys bag ordinal accepted budget settings read later work split rebuilt going
  refine ⟨after, later.take count, later.drop count, ?_, (List.take_append_drop count later).symm, next, ?_, ?_⟩
  · rw [rebuildStep, ran]
    rfl
  · rw [complete, List.drop_eq_nil_iff]
  · intro more
    have some := List.length_pos_iff.mpr more
    have taken := filled more
    rw [List.length_drop]
    omega

theorem reading_step (work : WorkRow Value) (budget : WorkBudget) (reading : Reading scalars aggregate keys bag work)
    (going : work.complete = false) (settings : Settings budget) :
    ∃ after, rebuildStep scalars aggregate keys bag work budget = .ok after ∧ Reading scalars aggregate keys bag after := by
  obtain ⟨read, later, split, rebuilt, _⟩ := reading
  obtain ⟨after, page, rest, stepped, divided, next, complete, _⟩ :=
    rebuild_step scalars aggregate keys bag ordinal accepted settings split rebuilt going
  refine ⟨after, stepped, read ++ page, rest, ?_, next, complete.mp⟩
  rw [split, divided, List.append_assoc]

variable (budgets : Nat → WorkBudget) (settings : ∀ round, Settings (budgets round))

include settings

-- The copies left are a measure of the pages to come.
theorem rebuild_ends (size round : Nat) (read later : List (Occurrence Row)) (work : WorkRow Value) (short : later.length ≤ size)
    (split : rebuildUnits scalars aggregate keys bag = read ++ later) (rebuilt : Rebuilt scalars aggregate keys read work)
    (going : work.complete = false) :
    ∃ count final, Rounds.rounds (rebuildStep scalars aggregate keys bag) WorkRow.complete budgets count round work = .ok final ∧
      final.complete = true ∧ Rebuilt scalars aggregate keys (rebuildUnits scalars aggregate keys bag) final := by
  induction size generalizing round read later work with
  | zero =>
      obtain ⟨after, page, rest, stepped, divided, next, complete, _⟩ :=
        rebuild_step scalars aggregate keys bag ordinal accepted (settings round) split rebuilt going
      have nothing : later = [] := List.length_eq_zero_iff.mp (Nat.le_zero.mp short)
      rw [nothing, eq_comm, List.append_eq_nil_iff] at divided
      refine ⟨1, after, Rounds.rounds_next _ _ _ _ _ _ _ going stepped, complete.mpr divided.2, ?_⟩
      rw [split, nothing, ← divided.1]
      exact next
  | succ size ih =>
      obtain ⟨after, page, rest, stepped, divided, next, complete, less⟩ :=
        rebuild_step scalars aggregate keys bag ordinal accepted (settings round) split rebuilt going
      have whole : rebuildUnits scalars aggregate keys bag = (read ++ page) ++ rest := by
        rw [split, divided, List.append_assoc]
      by_cases ended : rest = []
      · refine ⟨1, after, Rounds.rounds_next _ _ _ _ _ _ _ going stepped, complete.mpr ended, ?_⟩
        rw [whole, ended, List.append_nil]
        exact next
      · have some : later ≠ [] := by
          intro nothing
          rw [nothing, eq_comm, List.append_eq_nil_iff] at divided
          exact ended divided.2
        have shorter := less some
        obtain ⟨count, final, ran, ends⟩ := ih (round + 1) (read ++ page) rest after (by omega) whole next
          (Bool.eq_false_iff.mpr fun wrong => ended (complete.mp wrong))
        exact ⟨count + 1, final, (Rounds.rounds_next _ _ _ _ _ _ _ going stepped).trans ran, ends⟩

theorem rebuild_final {work : Option (WorkRow Value)} (finished : ∀ old, work = some old → old.complete = true)
    {started final : WorkRow Value} {count : Nat} (initialized : initializeWork aggregate work = some started)
    (ran : Rounds.rounds (rebuildStep scalars aggregate keys bag) WorkRow.complete budgets count 0 started = .ok final)
    (complete : final.complete = true) :
    (final.transitionState, final.noTransValue) =
      foldRows scalars aggregate (transitionedRows scalars aggregate (expandedRows scalars keys bag)) := by
  obtain ⟨fresh, same, going, rebuilt⟩ := rebuilt_start scalars aggregate keys work finished
  obtain rfl := Option.some.inj (initialized.symm.trans same)
  have reading : Reading scalars aggregate keys bag started :=
    ⟨[], _, rfl, rebuilt, fun wrong => absurd (going.symm.trans wrong) Bool.false_ne_true⟩
  obtain ⟨state, reached, read, later, split, ends, nothing⟩ := Rounds.rounds_keep (rebuildStep scalars aggregate keys bag)
    WorkRow.complete budgets _ Settings (reading_step scalars aggregate keys bag ordinal accepted) settings count 0 started reading
  obtain rfl := Except.ok.inj (ran.symm.trans reached)
  rw [nothing complete, List.append_nil] at split
  rw [ends.folded, ← split, transitioned_units]

-- Whatever the budgets are, no page fails, and the pages end with the state of one fold
-- over the expanded rows.
theorem aggregate_rebuild_exact (work : Option (WorkRow Value)) (finished : ∀ old, work = some old → old.complete = true) :
    ∃ started, initializeWork aggregate work = some started ∧
      (∀ count, ∃ state,
        Rounds.rounds (rebuildStep scalars aggregate keys bag) WorkRow.complete budgets count 0 started = .ok state) ∧
      ∃ count final, Rounds.rounds (rebuildStep scalars aggregate keys bag) WorkRow.complete budgets count 0 started = .ok final ∧
        final.complete = true ∧ (final.transitionState, final.noTransValue) =
          foldRows scalars aggregate (transitionedRows scalars aggregate (expandedRows scalars keys bag)) := by
  obtain ⟨started, initialized, going, rebuilt⟩ := rebuilt_start scalars aggregate keys work finished
  refine ⟨started, initialized, ?_, ?_⟩
  · intro count
    have reading : Reading scalars aggregate keys bag started :=
      ⟨[], _, rfl, rebuilt, fun wrong => absurd (going.symm.trans wrong) Bool.false_ne_true⟩
    obtain ⟨state, ran, _⟩ := Rounds.rounds_keep (rebuildStep scalars aggregate keys bag) WorkRow.complete budgets _ Settings
      (reading_step scalars aggregate keys bag ordinal accepted) settings count 0 started reading
    exact ⟨state, ran⟩
  · obtain ⟨count, final, ran, complete, ends⟩ := rebuild_ends scalars aggregate keys bag ordinal accepted budgets settings
      _ 0 [] _ started (Nat.le_refl _) rfl rebuilt going
    refine ⟨count, final, ran, complete, ?_⟩
    rw [ends.folded, transitioned_units]

end Rebuild

-- A strict sum without an initial value over the distinct positive integers of a bag.
def sumCapability : AggregateCapability Int where
  argumentCount := 1
  transitionFunction := fun state arguments => state.bind fun total => arguments.head?.join.map fun value => total + value
  transitionIsStrict := true
  initialLiteral := none
  finalFunction := none
  started := fun _ _ => rfl

def integerScalars : Scalars Unit Int Int where
  value := fun _ row => some row
  condition := fun _ row => some (decide (0 < row))
  equality := fun _ left right => decide (left = right)
  resolveBtree := fun key => ⟨fun left right => decide (left < right), fun left right => decide (left = right), key.nullsFirst,
    less_weak, equal_tied⟩
  resolvedEquality := fun _ => rfl
  resolvedNulls := fun _ => rfl
  effectRowBytes := fun _ => 8

def integerKey : SortGroupExpr Unit := ⟨(), ⟨20, -1, 0, true⟩, 410, 412, false⟩

def positiveSum : AggregateExpr Unit Int := ⟨sumCapability, [()], [integerKey], some (), [], rfl⟩

theorem repeated_distinct : (([⟨1, 5, 2⟩, ⟨2, -3, 1⟩, ⟨3, 4, 3⟩, ⟨4, 5, 1⟩] : List (BagRow Int)).map BagRow.rowId).Nodup := by decide

theorem repeated_positive : ∀ row ∈ ([⟨1, 5, 2⟩, ⟨2, -3, 1⟩, ⟨3, 4, 3⟩, ⟨4, 5, 1⟩] : List (BagRow Int)), 0 < row.multiplicity := by
  decide

def repeatedBag : GroupBag Int := ⟨[⟨1, 5, 2⟩, ⟨2, -3, 1⟩, ⟨3, 4, 3⟩, ⟨4, 5, 1⟩], repeated_distinct, repeated_positive⟩

theorem one_row_positive : 0 < 1 := Nat.one_pos

theorem eight_bytes_positive : 0 < 8 := by decide

def oneRow : WorkBudget := ⟨1, 8, 1, 8, one_row_positive, eight_bytes_positive, one_row_positive, eight_bytes_positive⟩

theorem one_row_settings : Settings oneRow := ⟨by decide, by decide⟩

theorem repeated_rebuilt :
    ∃ started, initializeWork positiveSum (none : Option (WorkRow Int)) = some started ∧
      (∀ count, ∃ state, Rounds.rounds (rebuildStep integerScalars positiveSum [⟨integerKey, "agg_1_distinct_1"⟩] repeatedBag)
        WorkRow.complete (fun _ => oneRow) count 0 started = .ok state) ∧
      ∃ count final, Rounds.rounds (rebuildStep integerScalars positiveSum [⟨integerKey, "agg_1_distinct_1"⟩] repeatedBag)
          WorkRow.complete (fun _ => oneRow) count 0 started = .ok final ∧
        final.complete = true ∧ (final.transitionState, final.noTransValue) = foldRows integerScalars positiveSum
          (transitionedRows integerScalars positiveSum
            (expandedRows integerScalars [⟨integerKey, "agg_1_distinct_1"⟩] repeatedBag)) :=
  aggregate_rebuild_exact integerScalars positiveSum [⟨integerKey, "agg_1_distinct_1"⟩] repeatedBag 1 rfl (fun _ => oneRow)
    (fun _ => one_row_settings) none (by
      intro old wrong
      cases wrong)

end Shiba.Aggregate
