import Shiba.Execution.Btree
import Shiba.Library.ThreeValued

set_option autoImplicit false

namespace Shiba.Execution

open Lexicographic ThreeValued

-- A key column of an aliased row: its name, and which of the keys it stores.
structure Column where
  relation : String
  name : String
  key : Nat
deriving DecidableEq, Repr

-- Operators are strict, so they are unknown of NULL. `idAfter` is current.id > boundary.id.
inductive KeyTest (Value : Type) where
  | isNull (column : Column)
  | isNotNull (column : Column)
  | operator (test : Value → Value → Bool) (left right : Column)
  | idAfter (current boundary : String)

-- The key columns and the id of an aliased row. A cursor that is not set has no id.
structure KeyValues (Value : Type) where
  keys : List (Option Value)
  id : Option Int

section

variable {Value : Type}

def cell (rows : String → KeyValues Value) (column : Column) : Option Value := ((rows column.relation).keys[column.key]?).join

def KeyTest.value (rows : String → KeyValues Value) : KeyTest Value → Option Bool
  | .isNull column => some (cell rows column).isNone
  | .isNotNull column => some (cell rows column).isSome
  | .operator test left right =>
      match cell rows left, cell rows right with
      | some left, some right => some (test left right)
      | _, _ => none
  | .idAfter current boundary =>
      match (rows boundary).id, (rows current).id with
      | some boundary, some current => some (decide (boundary < current))
      | _, _ => none

def nullSafeEquality (left right : Column) (equality : Value → Value → Bool) : Predicate (KeyTest Value) :=
  .or (.and (.test (.isNull left)) (.test (.isNull right)))
    (joinAnd [.test (.isNotNull left), .test (.isNotNull right)] (.test (.operator equality left right)))

-- The CASE that puts NULL first or last.
def afterSql (order : BtreeOrder Value) (before current : Column) : Predicate (KeyTest Value) :=
  if order.nullsFirst then
    .case (.test (.isNull before)) (.test (.isNotNull current))
      (.case (.test (.isNull current)) (.literal false) (.test (.operator order.sortOperator before current)))
  else
    .case (.test (.isNull before)) (.literal false)
      (.case (.test (.isNull current)) (.literal true) (.test (.operator order.sortOperator before current)))

-- The loop over the orders with its equal_prefix. An empty prefix joins nothing.
def keysetAlternativesSql (column : String → Nat → Column) (current boundary : String) :
    Nat → List (Predicate (KeyTest Value)) → List (BtreeOrder Value) → List (Predicate (KeyTest Value))
  | _, equalPrefix, [] => [joinAnd equalPrefix (.test (.idAfter current boundary))]
  | index, equalPrefix, order :: orders =>
      joinAnd equalPrefix (afterSql order (column boundary index) (column current index)) ::
        keysetAlternativesSql column current boundary (index + 1)
          (equalPrefix ++ [nullSafeEquality (column boundary index) (column current index) order.equalityOperator]) orders

def keysetAfterSql (orders : List (BtreeOrder Value)) : Predicate (KeyTest Value) :=
  joinOr (keysetAlternativesSql (fun relation index => ⟨relation, s!"key_{index + 1}", index⟩) "input_row" "boundary" 0 [] orders)

def windowKeysetSql (orders : List (BtreeOrder Value)) (currentAlias boundaryAlias : String) : Predicate (KeyTest Value) :=
  joinOr (keysetAlternativesSql (fun relation index => ⟨relation, s!"order_{index + 1}", index⟩) currentAlias boundaryAlias 0 []
    orders)

def valueRange (order : BtreeOrder Value) (cursor current : Column) : Predicate (KeyTest Value) :=
  joinAnd [.test (.isNotNull cursor), .test (.isNotNull current)] (.test (.operator order.sortOperator cursor current))

def nullRange (order : BtreeOrder Value) (cursor current : Column) : Predicate (KeyTest Value) :=
  if order.nullsFirst then .and (.test (.isNull cursor)) (.test (.isNotNull current))
  else .and (.test (.isNotNull cursor)) (.test (.isNull current))

-- Two ranges for each key, the second one where NULL follows, and one for the row id.
def rangePredicates : Nat → List (Predicate (KeyTest Value)) → List (BtreeOrder Value × String) → List (Predicate (KeyTest Value))
  | _, equal, [] => [joinAnd equal (.test (.idAfter "bag" "work"))]
  | index, equal, (order, name) :: keys =>
      let current : Column := ⟨"bag", name, index⟩
      let cursor : Column := ⟨"work", s!"cursor_order_{index + 1}", index⟩
      joinAnd equal (valueRange order cursor current) ::
      joinAnd equal (nullRange order cursor current) ::
      rangePredicates (index + 1) (equal ++ [nullSafeEquality current cursor order.equalityOperator]) keys

-- The range predicates of the rebuild's order.
def aggregateRebuildOrder (keys : List (BtreeOrder Value × String)) : List (Predicate (KeyTest Value)) := rangePredicates 0 [] keys

-- A row of ORDER BY keys, id.
structure KeyRow (Value : Type) where
  keys : List (Option Value)
  id : Int

def KeyRow.values (row : KeyRow Value) : KeyValues Value := ⟨row.keys, some row.id⟩

def keyAt (index : Nat) (order : BtreeOrder Value) : KeyColumn (KeyRow Value) Value :=
  { order with column := fun row => (row.keys[index]?).join }

def keysFrom : Nat → List (BtreeOrder Value) → List (KeyColumn (KeyRow Value) Value)
  | _, [] => []
  | index, order :: orders => keyAt index order :: keysFrom (index + 1) orders

def strictlyAfter (orders : List (BtreeOrder Value)) (boundary current : KeyRow Value) : Bool :=
  orderBefore KeyRow.id (keysFrom 0 orders) boundary current

def aliased (first : String) (one other : KeyRow Value) : String → KeyValues Value :=
  fun relation => if relation = first then one.values else other.values

section

variable (rows : String → KeyValues Value)

theorem holds_operator (test : Value → Value → Bool) (left right : Column) :
    holds (KeyTest.value rows) (.test (.operator test left right)) =
      match cell rows left, cell rows right with
      | some left, some right => test left right
      | _, _ => false := by
  rw [holds_test, KeyTest.value]
  cases cell rows left with
  | none => rfl
  | some left =>
      cases cell rows right with
      | none => rfl
      | some right => exact known_true _

theorem holds_null (column : Column) :
    holds (KeyTest.value rows) (.test (.isNull column)) = (cell rows column).isNone ∧
      holds (KeyTest.value rows) (.test (.isNotNull column)) = (cell rows column).isSome :=
  ⟨known_true _, known_true _⟩

theorem holds_null_safe (left right : Column) (order : BtreeOrder Value) :
    holds (KeyTest.value rows) (nullSafeEquality left right order.equalityOperator) = order.equals (cell rows left) (cell rows right) := by
  rw [nullSafeEquality, holds_or, holds_and, holds_join_and, holds_operator, List.all_cons, List.all_cons, List.all_nil,
    (holds_null rows left).1, (holds_null rows left).2, (holds_null rows right).1, (holds_null rows right).2]
  cases cell rows left with
  | none => cases cell rows right <;> rfl
  | some left =>
      cases cell rows right with
      | none => rfl
      | some right => rfl

variable (order : BtreeOrder Value)

theorem holds_after (before current : Column) :
    holds (KeyTest.value rows) (afterSql order before current) = order.after (cell rows before) (cell rows current) := by
  unfold afterSql BtreeOrder.after
  by_cases first : order.nullsFirst = true
  · rw [if_pos first, if_pos first, holds_case, holds_case, holds_operator, holds_literal, (holds_null rows before).1,
      (holds_null rows current).1, (holds_null rows current).2]
    cases cell rows before with
    | none => cases cell rows current <;> rfl
    | some before => cases cell rows current <;> rfl
  · rw [if_neg first, if_neg first, holds_case, holds_case, holds_operator, holds_literal, holds_literal,
      (holds_null rows before).1, (holds_null rows current).1]
    cases cell rows before with
    | none => cases cell rows current <;> rfl
    | some before => cases cell rows current <;> rfl

theorem holds_id_after (currentAlias boundaryAlias : String) (boundary current : KeyRow Value)
    (first : rows boundaryAlias = boundary.values) (second : rows currentAlias = current.values) :
    holds (KeyTest.value rows) (.test (.idAfter currentAlias boundaryAlias)) = decide (boundary.id < current.id) := by
  rw [holds_test, KeyTest.value, first, second]
  exact known_true _

-- Each generated alternative holds as the alternative of the resolved order does, by
-- induction on the orders with the equality of the keys before them.
theorem alternatives_hold {column : String → Nat → Column} {currentAlias boundaryAlias : String} {rows : String → KeyValues Value}
    {boundary current : KeyRow Value} (first : rows boundaryAlias = boundary.values) (second : rows currentAlias = current.values)
    (placed : ∀ relation index, (column relation index).relation = relation ∧ (column relation index).key = index)
    (orders : List (BtreeOrder Value)) (index : Nat) (equalPrefix : List (Predicate (KeyTest Value))) :
    (keysetAlternativesSql column currentAlias boundaryAlias index equalPrefix orders).map (holds (KeyTest.value rows)) =
      keysetAlternatives KeyRow.id boundary current (keysFrom index orders) (equalPrefix.all (holds (KeyTest.value rows))) := by
  induction orders generalizing index equalPrefix with
  | nil =>
      rw [keysetAlternativesSql, keysFrom, keysetAlternatives, List.map_cons, List.map_nil, holds_join_and,
        holds_id_after rows currentAlias boundaryAlias boundary current first second]
  | cons order orders ih =>
      have before : cell rows (column boundaryAlias index) = (keyAt index order).column boundary := by
        rw [cell, (placed boundaryAlias index).1, (placed boundaryAlias index).2, first]
        rfl
      have here : cell rows (column currentAlias index) = (keyAt index order).column current := by
        rw [cell, (placed currentAlias index).1, (placed currentAlias index).2, second]
        rfl
      rw [keysetAlternativesSql, keysFrom, keysetAlternatives, List.map_cons, holds_join_and, holds_after, before, here, ih,
        List.all_append, List.all_cons, List.all_nil, Bool.and_true, holds_null_safe, before, here]
      rfl

theorem keyset_sql_holds (column : String → Nat → Column) (currentAlias boundaryAlias : String) (rows : String → KeyValues Value)
    (boundary current : KeyRow Value) (first : rows boundaryAlias = boundary.values) (second : rows currentAlias = current.values)
    (placed : ∀ relation index, (column relation index).relation = relation ∧ (column relation index).key = index)
    (orders : List (BtreeOrder Value)) :
    holds (KeyTest.value rows) (joinOr (keysetAlternativesSql column currentAlias boundaryAlias 0 [] orders)) =
      strictlyAfter orders boundary current := by
  have alternatives := alternatives_hold first second placed orders 0 []
  rw [holds_join_or, strictlyAfter, ← keyset_after_order, keysetAfter, List.all_nil] at *
  rw [← alternatives, List.any_map]
  rfl

-- The two ranges of a key: both values are there, or NULL follows.
theorem holds_value_range (cursor current : Column) :
    holds (KeyTest.value rows) (valueRange order cursor current) =
      ((cell rows cursor).isSome && (cell rows current).isSome && order.after (cell rows cursor) (cell rows current)) := by
  rw [valueRange, holds_join_and, List.all_cons, List.all_cons, List.all_nil, (holds_null rows cursor).2, (holds_null rows current).2,
    holds_operator, Bool.and_true]
  unfold BtreeOrder.after
  cases cell rows cursor with
  | none => rfl
  | some before =>
      cases cell rows current with
      | none => rfl
      | some current => cases order.nullsFirst <;> rfl

theorem holds_null_range (cursor current : Column) :
    holds (KeyTest.value rows) (nullRange order cursor current) =
      (!((cell rows cursor).isSome && (cell rows current).isSome) && order.after (cell rows cursor) (cell rows current)) := by
  unfold nullRange BtreeOrder.after
  by_cases first : order.nullsFirst = true
  · rw [if_pos first, if_pos first, holds_and, (holds_null rows cursor).1, (holds_null rows current).2]
    cases cell rows cursor with
    | none => cases cell rows current <;> rfl
    | some before => cases cell rows current <;> rfl
  · rw [if_neg first, if_neg first, holds_and, (holds_null rows cursor).2, (holds_null rows current).1]
    cases cell rows cursor with
    | none => cases cell rows current <;> rfl
    | some before => cases cell rows current <;> rfl

end

section Ranges

variable (rows : String → KeyValues Value) (boundary current : KeyRow Value) (first : rows "work" = boundary.values)
  (second : rows "bag" = current.values)

include first second

variable (keys : List (BtreeOrder Value × String)) (index : Nat) (equal : List (Predicate (KeyTest Value)))

-- Together the ranges are the rows behind the cursor.
theorem ranges_cover :
    (rangePredicates index equal keys).any (holds (KeyTest.value rows)) =
      (equal.all (holds (KeyTest.value rows)) && orderBefore KeyRow.id (keysFrom index (keys.map Prod.fst)) boundary current) := by
  induction keys generalizing index equal with
  | nil =>
      rw [rangePredicates, List.any_cons, List.any_nil, Bool.or_false, holds_join_and,
        holds_id_after rows "bag" "work" boundary current first second]
      simp only [List.map_nil, keysFrom, orderBefore, orderSteps, List.nil_append, chain, Bool.and_false, Bool.or_false]
  | cons key keys ih =>
      obtain ⟨order, name⟩ := key
      have cursorCell : cell rows ⟨"work", s!"cursor_order_{index + 1}", index⟩ = (keyAt index order).column boundary := by
        rw [cell, first]
        rfl
      have currentCell : cell rows ⟨"bag", name, index⟩ = (keyAt index order).column current := by
        rw [cell, second]
        rfl
      have step : orderBefore KeyRow.id (keysFrom index (((order, name) :: keys).map Prod.fst)) boundary current =
        ((keyAt index order).precedes boundary current || (tied (keyAt index order).precedes boundary current &&
          orderBefore KeyRow.id (keysFrom (index + 1) (keys.map Prod.fst)) boundary current)) := rfl
      have after := after_precedes (keyAt index order) boundary current
      have equals := equals_tied (keyAt index order) current boundary
      rw [tied_symm] at equals
      rw [rangePredicates, List.any_cons, List.any_cons, holds_join_and, holds_join_and, holds_value_range, holds_null_range, ih,
        List.all_append, List.all_cons, List.all_nil, holds_null_safe, cursorCell, currentCell, step, Bool.and_true,
        ← after, ← equals]
      change (_ && (_ && _ && (keyAt index order).after _ _) || (_ && (_ && (keyAt index order).after _ _) ||
        _ && (keyAt index order).equals _ _ && _)) = _
      cases equal.all (holds (KeyTest.value rows)) <;>
        cases ((keyAt index order).column boundary).isSome && ((keyAt index order).column current).isSome <;>
        simp

-- No row is in two of them.
theorem ranges_apart :
    (rangePredicates index equal keys).Pairwise fun one other =>
      holds (KeyTest.value rows) one = true → holds (KeyTest.value rows) other = false := by
  induction keys generalizing index equal with
  | nil => exact List.pairwise_singleton _ _
  | cons key keys ih =>
      obtain ⟨order, name⟩ := key
      have cursorCell : cell rows ⟨"work", s!"cursor_order_{index + 1}", index⟩ = (keyAt index order).column boundary := by
        rw [cell, first]
        rfl
      have currentCell : cell rows ⟨"bag", name, index⟩ = (keyAt index order).column current := by
        rw [cell, second]
        rfl
      have after := after_precedes (keyAt index order) boundary current
      -- A later range holds only where this key's values are equal.
      have later (other : Predicate (KeyTest Value)) (member : other ∈ rangePredicates (index + 1)
          (equal ++ [nullSafeEquality ⟨"bag", name, index⟩ ⟨"work", s!"cursor_order_{index + 1}", index⟩ order.equalityOperator])
          keys)
          (behind : (keyAt index order).after ((keyAt index order).column boundary) ((keyAt index order).column current) = true) :
          holds (KeyTest.value rows) other = false := by
        by_contra wrong
        have found := List.any_eq_true.mpr ⟨other, member, Bool.not_eq_false _ ▸ wrong⟩
        rw [ranges_cover rows boundary current first second, List.all_append, List.all_cons, List.all_nil, holds_null_safe,
          cursorCell, currentCell, Bool.and_true, Bool.and_eq_true, Bool.and_eq_true] at found
        have ties := found.1.2
        change (keyAt index order).equals _ _ = true at ties
        rw [equals_tied, tied_symm] at ties
        rw [after, ((tied_iff _ _ _).mp ties).1] at behind
        cases behind
      rw [rangePredicates, List.pairwise_cons, List.pairwise_cons]
      refine ⟨?_, ?_, ih _ _⟩
      · intro other member here
        rw [holds_join_and, holds_value_range, cursorCell, currentCell, Bool.and_eq_true, Bool.and_eq_true] at here
        rcases List.mem_cons.mp member with same | rest
        · rw [same, holds_join_and, holds_null_range, cursorCell, currentCell, here.2.1]
          simp
        · exact later other rest here.2.2
      · intro other member here
        rw [holds_join_and, holds_null_range, cursorCell, currentCell, Bool.and_eq_true, Bool.and_eq_true] at here
        exact later other member here.2.2

end Ranges

-- Rows that store the values of other entries' keys are ordered as these are.
theorem order_image {Entry : Type} (id : Entry → Int) (image : Entry → KeyRow Value) (ids : ∀ entry, (image entry).id = id entry)
    (keys : List (KeyColumn Entry Value)) (index : Nat)
    (stored : ∀ entry place, ((image entry).keys[index + place]?) = (keys.map fun key => key.column entry)[place]?)
    (boundary current : Entry) :
    orderBefore KeyRow.id (keysFrom index (keys.map KeyColumn.toBtreeOrder)) (image boundary) (image current) =
      orderBefore id keys boundary current := by
  induction keys generalizing index with
  | nil =>
      simp only [List.map_nil, keysFrom, orderBefore, orderSteps, List.nil_append, chain, ids, Bool.and_false,
        Bool.or_false]
  | cons key keys ih =>
      have value (entry : Entry) : (keyAt index key.toBtreeOrder).column (image entry) = key.column entry := by
        have place := stored entry 0
        rw [Nat.add_zero, List.map_cons, List.getElem?_cons_zero] at place
        change ((image entry).keys[index]?).join = _
        rw [place]
        rfl
      have here (left right : Entry) :
          (keyAt index key.toBtreeOrder).precedes (image left) (image right) = key.precedes left right := by
        rw [KeyColumn.precedes, KeyColumn.precedes, value, value]
        rfl
      have tie : tied (keyAt index key.toBtreeOrder).precedes (image boundary) (image current) =
          tied key.precedes boundary current := by
        rw [tied, tied, here, here]
      have rest := ih (index + 1) (by
        intro entry place
        have next := stored entry (place + 1)
        rw [List.map_cons, List.getElem?_cons_succ] at next
        rw [← next]
        congr 1
        omega)
      change ((keyAt index key.toBtreeOrder).precedes _ _ || (tied (keyAt index key.toBtreeOrder).precedes _ _ &&
        orderBefore KeyRow.id (keysFrom (index + 1) (keys.map KeyColumn.toBtreeOrder)) _ _)) =
          (key.precedes _ _ || (tied key.precedes _ _ && orderBefore id keys _ _))
      rw [here, tie, rest]

-- The row that the generated predicates see of an entry.
def keyRow {Entry : Type} (id : Entry → Int) (keys : List (KeyColumn Entry Value)) (entry : Entry) : KeyRow Value :=
  ⟨keys.map fun key => key.column entry, id entry⟩

theorem strictly_after_entry {Entry : Type} (id : Entry → Int) (keys : List (KeyColumn Entry Value)) (boundary current : Entry) :
    strictlyAfter (keys.map KeyColumn.toBtreeOrder) (keyRow id keys boundary) (keyRow id keys current) =
      orderBefore id keys boundary current := by
  apply order_image id (keyRow id keys) (fun _ => rfl) keys 0
  intro entry place
  rw [Nat.zero_add]
  rfl

-- Of two rows with distinct ids, one comes strictly after the other.
theorem after_either (orders : List (BtreeOrder Value)) (a b : KeyRow Value) (distinct : a.id ≠ b.id) :
    strictlyAfter orders a b = !strictlyAfter orders b a := by
  have weak := order_weak KeyRow.id (keysFrom 0 orders)
  rw [strictlyAfter, strictlyAfter]
  cases forth : orderBefore KeyRow.id (keysFrom 0 orders) a b with
  | true => rw [weak.asymmetric a b forth, Bool.not_false]
  | false =>
      cases back : orderBefore KeyRow.id (keysFrom 0 orders) b a with
      | true => rfl
      | false => exact absurd (keys_equal_tied (keysFrom 0 orders) ((tied_iff _ a b).mpr ⟨forth, back⟩)) distinct

-- The generated predicates continue behind the boundary exactly, and the ranges of a
-- rebuild divide what is behind it.
theorem keyset_continuation_exact :
    (∀ (orders : List (BtreeOrder Value)) (a b : KeyRow Value),
      holds (KeyTest.value (aliased "boundary" a b)) (keysetAfterSql orders) = strictlyAfter orders a b) ∧
    (∀ (orders : List (BtreeOrder Value)) (a b : KeyRow Value) (currentAlias boundaryAlias : String), currentAlias ≠ boundaryAlias →
      holds (KeyTest.value (aliased boundaryAlias a b)) (windowKeysetSql orders currentAlias boundaryAlias) =
        strictlyAfter orders a b) ∧
    (∀ (keys : List (BtreeOrder Value × String)) (a b : KeyRow Value),
      ((aggregateRebuildOrder keys).Pairwise fun one other =>
        ¬(holds (KeyTest.value (aliased "work" a b)) one = true ∧ holds (KeyTest.value (aliased "work" a b)) other = true)) ∧
      (aggregateRebuildOrder keys).any (holds (KeyTest.value (aliased "work" a b))) = strictlyAfter (keys.map Prod.fst) a b) ∧
    (∀ (orders : List (BtreeOrder Value)) (a b : KeyRow Value), a.id ≠ b.id →
      strictlyAfter orders a b = !strictlyAfter orders b a) := by
  refine ⟨?_, ?_, ?_, ?_⟩
  · intro orders a b
    apply keyset_sql_holds
    · rfl
    · rfl
    · intro relation index
      exact ⟨rfl, rfl⟩
  · intro orders a b currentAlias boundaryAlias distinct
    apply keyset_sql_holds
    · exact if_pos rfl
    · exact if_neg distinct
    · intro relation index
      exact ⟨rfl, rfl⟩
  · intro keys a b
    constructor
    · apply (ranges_apart (aliased "work" a b) a b rfl rfl keys 0 []).imp
      intro one other apart both
      rw [apart both.1] at both
      cases both.2
    · rw [aggregateRebuildOrder, ranges_cover (aliased "work" a b) a b rfl rfl keys 0 []]
      rfl
  · intro orders a b distinct
    exact after_either orders a b distinct

end

end Shiba.Execution
