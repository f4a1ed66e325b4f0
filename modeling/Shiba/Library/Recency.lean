import Mathlib.Tactic

set_option autoImplicit false

namespace Recency

variable {K V : Type} [DecidableEq K]

def find (items : List (K × V)) (key : K) : Option V := (items.find? fun item => item.1 = key).map Prod.snd

def without (items : List (K × V)) (key : K) : List (K × V) := items.filter fun item => item.1 ≠ key

-- A cache with the item that was used longest ago first.
structure Cache (K V : Type) where
  items : List (K × V)
  capacity : Nat
deriving DecidableEq, Repr

namespace Cache

-- The key's item becomes the one used last.
def use (cache : Cache K V) (key : K) (value : V) : Cache K V :=
  { cache with items := without cache.items key ++ [(key, value)] }

-- A use that may change the value it finds.
def visit (cache : Cache K V) (key : K) (change : V → V) : Cache K V × Option V :=
  match find cache.items key with
  | none => (cache, none)
  | some value => (cache.use key (change value), some value)

-- What does not fit goes, the longest unused first.
def trim (cache : Cache K V) : Cache K V × List (K × V) :=
  let excess := cache.items.length - cache.capacity
  ({ cache with items := cache.items.drop excess }, cache.items.take excess)

def insert (cache : Cache K V) (key : K) (value : V) : Cache K V × List (K × V) := (cache.use key value).trim

def remove (cache : Cache K V) (key : K) : Cache K V × Option V :=
  ({ cache with items := without cache.items key }, find cache.items key)

def resize (cache : Cache K V) (capacity : Nat) : Cache K V × List (K × V) := { cache with capacity }.trim

end Cache

theorem find_append (first second : List (K × V)) (key : K) (absent : key ∉ first.map Prod.fst) :
    find (first ++ second) key = find second key := by
  have missed : first.find? (fun item => item.1 = key) = none := by
    apply List.find?_eq_none.mpr
    intro item member
    simp only [decide_eq_true_eq]
    intro same
    exact absent (same ▸ List.mem_map_of_mem member)
  rw [find, List.find?_append, missed, Option.none_or]
  rfl

theorem without_absent (items : List (K × V)) (key : K) : key ∉ (without items key).map Prod.fst := by
  intro member
  obtain ⟨item, kept, same⟩ := List.mem_map.mp member
  exact of_decide_eq_true (List.mem_filter.mp kept).2 same

-- What was just inserted stays: something older goes first.
theorem insert_kept (cache : Cache K V) (key : K) (value : V) (positive : 0 < cache.capacity) :
    find (cache.insert key value).1.items key = some value ∧ key ∉ (cache.insert key value).2.map Prod.fst := by
  have absent := without_absent cache.items key
  have small : (without cache.items key ++ [(key, value)]).length - cache.capacity ≤ (without cache.items key).length := by
    rw [List.length_append, List.length_singleton]
    omega
  have kept : (cache.insert key value).1.items =
      (without cache.items key).drop ((without cache.items key ++ [(key, value)]).length - cache.capacity) ++
        [(key, value)] := List.drop_append_of_le_length small
  have gone : (cache.insert key value).2 =
      (without cache.items key).take ((without cache.items key ++ [(key, value)]).length - cache.capacity) :=
    List.take_append_of_le_length small
  constructor
  · rw [kept, find_append]
    · simp [find]
    · intro member
      exact absent ((List.drop_sublist _ _).map Prod.fst |>.subset member)
  · rw [gone]
    intro member
    exact absent ((List.take_sublist _ _).map Prod.fst |>.subset member)

end Recency
