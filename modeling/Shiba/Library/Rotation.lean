import Shiba.Library.Lexicographic

set_option autoImplicit false

namespace Rotation

open Lexicographic

universe u

section Search

-- A binary search for the first index where a predicate fails, wherever in the
-- window that is left it looks next.
def searchFrom (probe : Nat → Nat → Nat) (below : Nat → Bool) : Nat → Nat → Nat → Nat
  | 0, low, _ => low
  | fuel + 1, low, high =>
      if low < high then
        let middle := low + probe low high % (high - low)
        if below middle then searchFrom probe below fuel (middle + 1) high else searchFrom probe below fuel low middle
      else low

def partitionPoint {α : Type u} (probe : Nat → Nat → Nat) (below : α → Bool) (items : List α) : Nat :=
  searchFrom probe (fun index => items[index]?.any below) items.length 0 items.length

-- The search ends between an item of the predicate and one outside it.
theorem search_edge (probe : Nat → Nat → Nat) (below : Nat → Bool) (size fuel low high : Nat) (enough : high - low ≤ fuel)
    (window : low ≤ high) (fits : high ≤ size) (left : low = 0 ∨ below (low - 1) = true) (right : high = size ∨ below high = false) :
    let point := searchFrom probe below fuel low high
    point ≤ size ∧ (point = 0 ∨ below (point - 1) = true) ∧ (point = size ∨ below point = false) := by
  induction fuel generalizing low high with
  | zero =>
      have same : low = high := by omega
      rw [searchFrom]
      exact ⟨by omega, left, same ▸ right⟩
  | succ fuel ih =>
      rw [searchFrom]
      by_cases wide : low < high
      · rw [if_pos wide]
        have inside : probe low high % (high - low) < high - low := Nat.mod_lt _ (by omega)
        by_cases here : below (low + probe low high % (high - low)) = true
        · simp only [here, if_true]
          exact ih _ _ (by omega) (by omega) fits (.inr here) right
        · simp only [here]
          exact ih _ _ (by omega) (by omega) (by omega) left (.inr (Bool.not_eq_true _ ▸ here))
      · have same : low = high := by omega
        rw [if_neg wide]
        exact ⟨by omega, left, same ▸ right⟩

-- Where the predicate fails first and holds after, the search ends at an end.
theorem partition_rotated {α : Type u} (probe : Nat → Nat → Nat) (below : α → Bool) (first second : List α)
    (outside : ∀ item ∈ first, below item = false) (within : ∀ item ∈ second, below item = true) :
    partitionPoint probe below (first ++ second) = 0 ∨
      partitionPoint probe below (first ++ second) = (first ++ second).length := by
  have edge := search_edge probe (fun index => (first ++ second)[index]?.any below) (first ++ second).length
    (first ++ second).length 0 (first ++ second).length (by omega) (Nat.zero_le _) (Nat.le_refl _) (.inl rfl) (.inl rfl)
  simp only at edge
  rw [← partitionPoint] at edge
  obtain ⟨fits, left, right⟩ := edge
  generalize partitionPoint probe below (first ++ second) = point at fits left right ⊢
  by_cases start : point = 0
  · exact .inl start
  by_cases finish : point = (first ++ second).length
  · exact .inr finish
  exfalso
  have left := left.resolve_left start
  have right := right.resolve_left finish
  rw [List.length_append] at fits finish
  by_cases early : point - 1 < first.length
  · rw [List.getElem?_append_left early, List.getElem?_eq_getElem early, Option.any_some,
      outside _ (List.getElem_mem early)] at left
    cases left
  · have inside : point - first.length < second.length := by omega
    rw [List.getElem?_append_right (by omega), List.getElem?_eq_getElem inside, Option.any_some,
      within _ (List.getElem_mem inside)] at right
    cases right

end Search

section Turn

variable {α : Type u} [LinearOrder α]

def ascending (items : List α) : List α := sorted (fun a b => decide (a < b)) items

-- The items up to the cursor have to wait for the others.
def wrapped (cursor : Option α) (item : α) : Bool := cursor.any fun cursor => decide (item ≤ cursor)

def sooner (cursor : Option α) (a b : α) : Bool :=
  if wrapped cursor a = wrapped cursor b then decide (a < b) else wrapped cursor b

-- The items in ascending cyclic order, from the first one after the cursor.
def turn (cursor : Option α) (items : List α) : List α :=
  ascending (items.filter fun item => !wrapped cursor item) ++ ascending (items.filter (wrapped cursor))

-- The known items that come before one item.
def ahead (cursor : Option α) (known : List α) (item : α) : Nat :=
  (known.filter fun other => sooner cursor other item).length

section

variable (cursor : Option α) (items : List α)

theorem ascending_mem (item : α) : item ∈ ascending items ↔ item ∈ items := (sorted_perm items).mem_iff

theorem ascending_pairwise (distinct : items.Nodup) : (ascending items).Pairwise (· < ·) := by
  have apart : (items.Pairwise fun a b : α => tied (fun a b : α => decide (a < b)) a b = false) := by
    apply List.Pairwise.imp _ distinct
    intro a b different
    rw [← equal_tied]
    exact decide_eq_false different
  apply List.Pairwise.imp _ (sorted_strict less_weak apart)
  intro a b before
  exact of_decide_eq_true before

theorem turn_mem (item : α) : item ∈ turn cursor items ↔ item ∈ items := by
  rw [turn, List.mem_append, ascending_mem, ascending_mem, List.mem_filter, List.mem_filter, Bool.not_eq_true']
  cases wrapped cursor item <;> simp

theorem turn_perm : (turn cursor items).Perm items := by
  have parts := List.filter_append_perm (fun item => !wrapped cursor item) items
  simp only [Bool.not_not] at parts
  exact ((sorted_perm _).append (sorted_perm _)).trans parts

theorem turn_pairwise (distinct : items.Nodup) :
    (turn cursor items).Pairwise fun a b => sooner cursor a b = true := by
  rw [turn, List.pairwise_append]
  refine ⟨?_, ?_, ?_⟩
  · have ordered := ascending_pairwise _ (distinct.filter fun item => !wrapped cursor item)
    apply List.Pairwise.imp_of_mem _ ordered
    intro a b first second before
    rw [ascending_mem, List.mem_filter, Bool.not_eq_true'] at first second
    rw [sooner, first.2, second.2, if_pos rfl]
    exact decide_eq_true before
  · have ordered := ascending_pairwise _ (distinct.filter (wrapped cursor))
    apply List.Pairwise.imp_of_mem _ ordered
    intro a b first second before
    rw [ascending_mem, List.mem_filter] at first second
    rw [sooner, first.2, second.2, if_pos rfl]
    exact decide_eq_true before
  · intro a first b second
    rw [ascending_mem, List.mem_filter, Bool.not_eq_true'] at first
    rw [ascending_mem, List.mem_filter] at second
    rw [sooner, first.2, second.2, if_neg Bool.false_ne_true]

theorem sooner_irrefl (item : α) : sooner cursor item item = false := by
  rw [sooner, if_pos rfl]
  exact decide_eq_false (lt_irrefl item)

theorem sooner_asymm (a b : α) (before : sooner cursor a b = true) : sooner cursor b a = false := by
  unfold sooner at before ⊢
  by_cases same : wrapped cursor a = wrapped cursor b
  · rw [if_pos same] at before
    rw [if_pos same.symm]
    exact decide_eq_false (not_lt.mpr (of_decide_eq_true before).le)
  · rw [if_neg same] at before
    rw [if_neg (Ne.symm same)]
    cases earlier : wrapped cursor a with
    | false => rfl
    | true => exact absurd (earlier.trans before.symm) same

theorem page_sooner (page : List α) (item : α) (distinct : items.Nodup) (first : page <+: turn cursor items)
    (member : item ∈ items) (missed : item ∉ page) : ∀ other ∈ page, sooner cursor other item = true := by
  obtain ⟨rest, split⟩ := first
  have ordered := turn_pairwise cursor items distinct
  rw [← split, List.pairwise_append] at ordered
  rw [← turn_mem cursor, ← split, List.mem_append] at member
  intro other served
  exact ordered.2.2 other served item (member.resolve_left missed)

-- From an item that comes before another one, fewer items are ahead of the other.
theorem sooner_moved {cursor : Option α} {last item other : α} (before : sooner cursor last item = true)
    (still : sooner (some last) other item = true) : sooner cursor last other = true ∧ sooner cursor other item = true := by
  cases cursor with
  | none =>
      simp only [sooner, wrapped, Option.any_none, if_true, Option.any_some, decide_eq_true_eq] at before still ⊢
      grind
  | some cursor =>
      simp only [sooner, wrapped, Option.any_some] at before still ⊢
      grind

theorem ahead_less (known : List α) (item : α) (member : item ∈ known) :
    ahead cursor known item < known.length := by
  apply List.length_filter_lt_length_iff_exists.mpr
  refine ⟨item, member, ?_⟩
  rw [sooner_irrefl]
  exact Bool.false_ne_true

end

-- A page that comes before an item brings it nearer by the page's length.
theorem ahead_served {cursor : Option α} {known page : List α} {last item : α} (distinct : known.Nodup)
    (inside : ∀ other ∈ page, other ∈ known) (ordered : page.Pairwise fun a b => sooner cursor a b = true)
    (before : ∀ other ∈ page, sooner cursor other item = true) (ended : page.getLast? = some last) :
    ahead (some last) known item + page.length ≤ ahead cursor known item := by
  have final : last ∈ page := List.mem_of_getLast? ended
  have separate : (page ++ known.filter fun other => sooner (some last) other item).Nodup := by
    rw [List.nodup_append]
    refine ⟨?_, distinct.filter _, ?_⟩
    · apply List.Pairwise.imp _ ordered
      intro a b first same
      rw [same, sooner_irrefl] at first
      cases first
    · intro other served another waiting same
      rw [← same, List.mem_filter] at waiting
      have later := (sooner_moved (before last final) waiting.2).1
      obtain ⟨front, split⟩ := List.getLast?_eq_some_iff.mp ended
      rw [split, List.mem_append, List.mem_singleton] at served
      rcases served with earlier | rfl
      · rw [split, List.pairwise_append] at ordered
        have first := ordered.2.2 other earlier last (List.mem_singleton_self last)
        rw [sooner_asymm cursor other last first] at later
        cases later
      · rw [sooner_irrefl] at later
        cases later
  have within : (page ++ known.filter fun other => sooner (some last) other item) ⊆
      known.filter fun other => sooner cursor other item := by
    intro other member
    rw [List.mem_filter]
    rcases List.mem_append.mp member with served | waiting
    · exact ⟨inside other served, before other served⟩
    · rw [List.mem_filter] at waiting
      exact ⟨waiting.1, (sooner_moved (before last final) waiting.2).2⟩
  have count := (separate.subperm within).length_le
  rw [List.length_append] at count
  rw [ahead, ahead]
  omega

-- A wait that every turn shortens.
theorem waits (distance : Nat → Nat) (size count : Nat) (shortens : ∀ round < count, distance (round + 1) + size ≤ distance round) :
    distance count + count * size ≤ distance 0 := by
  induction count with
  | zero => omega
  | succ count ih =>
      have before := ih fun round less => shortens round (by omega)
      have next := shortens count (Nat.lt_succ_self count)
      rw [Nat.succ_mul]
      omega

end Turn

end Rotation
