import Shiba.Library.Lexicographic

set_option autoImplicit false

namespace Shiba.Execution

open Lexicographic

-- A resolved step of ORDER BY: the operators come from one b-tree operator class.
structure BtreeOrder (Value : Type) where
  sortOperator : Value → Value → Bool
  equalityOperator : Value → Value → Bool
  nullsFirst : Bool
  weak : Weak sortOperator
  equality : ∀ a b, equalityOperator a b = tied sortOperator a b

-- A stored sort key column of a work table.
structure KeyColumn (Entry Value : Type) extends BtreeOrder Value where
  column : Entry → Option Value

section

variable {Entry Value : Type}

-- `boundary` is the source's before.
def BtreeOrder.after (order : BtreeOrder Value) (boundary current : Option Value) : Bool :=
  if order.nullsFirst then
    match boundary, current with
    | none, current => current.isSome
    | some _, none => false
    | some boundary, some current => order.sortOperator boundary current
  else
    match boundary, current with
    | none, _ => false
    | some _, none => true
    | some boundary, some current => order.sortOperator boundary current

def BtreeOrder.equals (order : BtreeOrder Value) (left right : Option Value) : Bool :=
  match left, right with
  | none, none => true
  | some left, some right => order.equalityOperator left right
  | _, _ => false

-- One alternative for each key under the equality of the keys before it, and
-- the row id under the equality of all of them.
def keysetAlternatives (id : Entry → Int) (boundary current : Entry) : List (KeyColumn Entry Value) → Bool → List Bool
  | [], equalPrefix => [equalPrefix && decide (id boundary < id current)]
  | key :: rest, equalPrefix =>
      (equalPrefix && key.after (key.column boundary) (key.column current)) ::
        keysetAlternatives id boundary current rest (equalPrefix && key.equals (key.column boundary) (key.column current))

def keysetAfter (id : Entry → Int) (keys : List (KeyColumn Entry Value)) (boundary current : Entry) : Bool :=
  (keysetAlternatives id boundary current keys true).any fun alternative => alternative

def keysEqual (keys : List (KeyColumn Entry Value)) (left right : Entry) : Bool :=
  keys.all fun key => key.equals (key.column left) (key.column right)

-- One step of ORDER BY, and all of them with the row id last.
def KeyColumn.precedes (key : KeyColumn Entry Value) (left right : Entry) : Bool :=
  nullable key.nullsFirst key.sortOperator (key.column left) (key.column right)

def orderSteps (id : Entry → Int) (keys : List (KeyColumn Entry Value)) : List (Entry → Entry → Bool) :=
  keys.map KeyColumn.precedes ++ [fun left right => decide (id left < id right)]

def orderBefore (id : Entry → Int) (keys : List (KeyColumn Entry Value)) : Entry → Entry → Bool := chain (orderSteps id keys)

def orderBy (id : Entry → Int) (keys : List (KeyColumn Entry Value)) (entries : List Entry) : List Entry :=
  sorted (orderBefore id keys) entries

theorem after_precedes (key : KeyColumn Entry Value) (boundary current : Entry) :
    key.after (key.column boundary) (key.column current) = key.precedes boundary current := by
  unfold KeyColumn.precedes BtreeOrder.after
  cases key.nullsFirst <;> cases key.column boundary <;> cases key.column current <;> rfl

theorem equals_tied (key : KeyColumn Entry Value) (left right : Entry) :
    key.equals (key.column left) (key.column right) = tied key.precedes left right := by
  unfold BtreeOrder.equals tied KeyColumn.precedes
  cases key.column left with
  | none => cases key.column right <;> cases key.nullsFirst <;> rfl
  | some value =>
      cases key.column right with
      | none => cases key.nullsFirst <;> rfl
      | some other => exact key.equality value other

theorem precedes_weak (key : KeyColumn Entry Value) : Weak key.precedes :=
  on_weak key.column _ (nullable_weak key.nullsFirst key.sortOperator key.weak)

variable (id : Entry → Int) (keys : List (KeyColumn Entry Value))

theorem id_weak : Weak fun left right : Entry => decide (id left < id right) := by
  refine ⟨fun left right first => ?_, fun left middle right first => ?_⟩
  · have low := of_decide_eq_true first
    exact decide_eq_false (by omega)
  · have low := of_decide_eq_true first
    by_cases here : id left < id middle
    · exact .inl (decide_eq_true here)
    · exact .inr (decide_eq_true (by omega))

theorem order_weak : Weak (orderBefore id keys) := by
  apply chain_weak
  intro step member
  rcases List.mem_append.mp member with listed | last
  · obtain ⟨key, _, rfl⟩ := List.mem_map.mp listed
    exact precedes_weak key
  · obtain rfl := List.mem_singleton.mp last
    exact id_weak id

-- The generated predicate is the order of ORDER BY, by induction on the keys.
theorem keyset_after_order (boundary current : Entry) :
    keysetAfter id keys boundary current = orderBefore id keys boundary current := by
  have alternatives : ∀ (keys : List (KeyColumn Entry Value)) (equalPrefix : Bool),
      (keysetAlternatives id boundary current keys equalPrefix).any (fun alternative => alternative) =
        (equalPrefix && orderBefore id keys boundary current) := by
    intro keys
    induction keys with
    | nil =>
        intro equalPrefix
        simp only [keysetAlternatives, List.any_cons, List.any_nil, Bool.or_false, orderBefore, orderSteps, List.map_nil,
          List.nil_append, chain, Bool.and_false]
    | cons key rest ih =>
        intro equalPrefix
        have step : orderBefore id (key :: rest) boundary current =
          (key.precedes boundary current || (tied key.precedes boundary current && orderBefore id rest boundary current)) := rfl
        rw [keysetAlternatives, List.any_cons, ih, step, after_precedes, equals_tied]
        cases equalPrefix
        · rfl
        · rfl
  rw [keysetAfter, alternatives keys true]
  rfl

theorem keys_equal_tied {id : Entry → Int} {left right : Entry} (same : tied (orderBefore id keys) left right = true) :
    id left = id right := by
  induction keys with
  | nil =>
      obtain ⟨forth, back⟩ := (tied_iff _ left right).mp same
      simp only [orderBefore, orderSteps, List.map_nil, List.nil_append, chain, Bool.and_false, Bool.or_false,
        decide_eq_false_iff_not] at forth back
      omega
  | cons key rest ih =>
      apply ih
      have step (left right : Entry) : orderBefore id (key :: rest) left right =
        (key.precedes left right || (tied key.precedes left right && orderBefore id rest left right)) := rfl
      obtain ⟨forth, back⟩ := (tied_iff _ left right).mp same
      rw [step, Bool.or_eq_false_iff] at forth back
      have ties : tied key.precedes left right = true := (tied_iff _ left right).mpr ⟨forth.1, back.1⟩
      rw [ties, Bool.true_and] at forth
      rw [tied_symm key.precedes right left, ties, Bool.true_and] at back
      exact (tied_iff _ left right).mpr ⟨forth.2, back.2⟩

theorem keys_equal_symm (left right : Entry) :
    keysEqual keys left right = keysEqual keys right left := by
  unfold keysEqual
  congr 1
  funext key
  rw [equals_tied, equals_tied, tied_symm]

theorem keys_equal_self (entry : Entry) : keysEqual keys entry entry = true := by
  rw [keysEqual, List.all_eq_true]
  intro key _
  rw [equals_tied]
  exact tied_self (precedes_weak key) entry

-- Rows whose keys are equal stand together: no other row comes between them.
theorem keys_equal_between {id : Entry → Int} {first middle last : Entry} (before : orderBefore id keys first middle = true)
    (later : orderBefore id keys middle last = true) (same : keysEqual keys last first = true) :
    keysEqual keys middle first = true := by
  induction keys with
  | nil => rfl
  | cons key rest ih =>
      have step (left right : Entry) : orderBefore id (key :: rest) left right =
        (key.precedes left right || (tied key.precedes left right && orderBefore id rest left right)) := rfl
      have split (left right : Entry) : keysEqual (key :: rest) left right =
        (tied key.precedes left right && keysEqual rest left right) := by rw [← equals_tied]; rfl
      rw [split, Bool.and_eq_true] at same ⊢
      rw [step, Bool.or_eq_true, Bool.and_eq_true] at before later
      have weak := precedes_weak key
      have near : tied key.precedes first middle = true := by
        rcases before with wrong | ⟨ties, _⟩
        · rcases later with further | ⟨ties, _⟩
          · have around := transitive weak first middle last wrong further
            rw [((tied_iff _ last first).mp same.1).2] at around
            cases around
          · rw [tied_right weak middle last first ties, ((tied_iff _ last first).mp same.1).2] at wrong
            cases wrong
        · exact ties
      have apart : key.precedes first middle = false := ((tied_iff _ first middle).mp near).1
      have far : key.precedes middle last = false := by
        rw [← tied_left weak first middle last near]
        exact ((tied_iff _ last first).mp same.1).2
      have beforeRest : orderBefore id rest first middle = true := by
        rcases before with wrong | ⟨_, goal⟩
        · rw [apart] at wrong
          cases wrong
        · exact goal
      have laterRest : orderBefore id rest middle last = true := by
        rcases later with wrong | ⟨_, goal⟩
        · rw [far] at wrong
          cases wrong
        · exact goal
      exact ⟨(tied_symm key.precedes middle first).trans near, ih beforeRest laterRest same.2⟩

end

end Shiba.Execution
