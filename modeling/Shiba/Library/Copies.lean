import Shiba.Library.Weighted

set_option autoImplicit false

namespace Copies

open Weighted

universe u

variable {α : Type u} [DecidableEq α]

-- Each item with the number of equal items before it, as row_number() - 1
-- counts them within the partitions of equal items.
def ranked (items : List α) : List (α × Nat) :=
  items.zipIdx.map fun entry => (entry.1, (items.take entry.2).count entry.1)

section

variable (bound : α → Int) (items : List α) (changes requests : List (α × Int))

theorem ranked_append_one (last : α) :
    ranked (items ++ [last]) = ranked items ++ [(last, items.count last)] := by
  unfold ranked
  rw [List.zipIdx_append, List.map_append]
  congr 1
  · apply List.map_congr_left
    intro entry member
    obtain ⟨_, inside, _⟩ := List.mem_zipIdx member
    rw [List.take_append_of_le_length (by omega)]
  · simp

-- The items below a bound of their own on the rank, and those from it on.
def below (bound : α → Int) (items : List α) : List α :=
  ((ranked items).filter fun entry => decide ((entry.2 : Int) < bound entry.1)).map Prod.fst

def beyond (bound : α → Int) (items : List α) : List α :=
  ((ranked items).filter fun entry => !decide ((entry.2 : Int) < bound entry.1)).map Prod.fst

theorem count_below (item : α) :
    (below bound items).count item = min (items.count item) (bound item).toNat := by
  induction items using List.reverseRecOn with
  | nil => simp [below, ranked]
  | append_singleton items last ih =>
      unfold below at ih ⊢
      rw [ranked_append_one, List.filter_append, List.map_append, List.count_append, ih, List.count_append]
      by_cases same : last = item
      · subst same
        by_cases low : ((items.count last : Nat) : Int) < bound last
        · simp only [List.filter_cons, low, decide_true, if_true, List.filter_nil, List.map_cons, List.map_nil,
            List.count_singleton_self]
          omega
        · simp only [List.filter_cons, low, decide_false, Bool.false_eq_true, if_false, List.filter_nil, List.map_nil,
            List.count_nil, List.count_singleton_self]
          omega
      · have absent : ([last] : List α).count item = 0 := List.count_eq_zero.mpr (by simp [Ne.symm same])
        have none : ((([(last, items.count last)] : List (α × Nat)).filter
            fun entry => decide ((entry.2 : Int) < bound entry.1)).map Prod.fst).count item = 0 := by
          rw [List.count_eq_zero]
          intro member
          obtain ⟨entry, inside, rfl⟩ := List.mem_map.mp member
          obtain rfl := List.mem_singleton.mp (List.mem_filter.mp inside).1
          exact same rfl
        rw [absent, none]
        omega

theorem ranked_fst : (ranked items).map Prod.fst = items := by
  unfold ranked
  rw [List.map_map]
  exact List.zipIdx_map_fst 0 items

-- Every item is on one side of its bound.
theorem count_beyond (item : α) :
    (beyond bound items).count item = items.count item - (bound item).toNat := by
  have split : (below bound items).count item + (beyond bound items).count item = items.count item := by
    have parts := (List.filter_append_perm (fun entry : α × Nat => decide ((entry.2 : Int) < bound entry.1))
      (ranked items)).map Prod.fst
    rw [List.map_append, ranked_fst] at parts
    rw [← parts.count_eq item, List.count_append]
    rfl
  rw [count_below] at split
  omega

-- Requests for copies, each starting where those before it for the same item end.
def placed (requests : List (α × Int)) : List (α × Int × Int) :=
  requests.zipIdx.map fun entry => (entry.1.1, weight (requests.take entry.2) entry.1.1, entry.1.2)

theorem placed_append_one (last : α × Int) :
    placed (requests ++ [last]) = placed requests ++ [(last.1, weight requests last.1, last.2)] := by
  unfold placed
  rw [List.zipIdx_append, List.map_append]
  congr 1
  · apply List.map_congr_left
    intro entry member
    obtain ⟨_, inside, _⟩ := List.mem_zipIdx member
    rw [List.take_append_of_le_length (by omega)]
  · simp

-- Together the requests for one item cover its first copies, without a gap.
theorem placed_covers (positive : ∀ request ∈ requests, 0 < request.2) (item : α) (rank : Nat) :
    (∃ request ∈ placed requests, request.1 = item ∧ request.2.1 ≤ (rank : Int) ∧
      (rank : Int) < request.2.1 + request.2.2) ↔ (rank : Int) < weight requests item := by
  induction requests using List.reverseRecOn with
  | nil => simp [placed]
  | append_singleton requests last ih =>
      have rest := ih fun request member => positive request (List.mem_append_left _ member)
      have lastPositive := positive last (List.mem_append_right _ (List.mem_singleton.mpr rfl))
      rw [placed_append_one, weight_append, weight_single]
      by_cases same : last.1 = item
      · subst same
        rw [if_pos rfl]
        constructor
        · intro found
          obtain ⟨request, member, isItem, low, high⟩ := found
          rcases List.mem_append.mp member with old | new
          · have earlier := rest.mp ⟨request, old, isItem, low, high⟩
            omega
          · obtain rfl := List.mem_singleton.mp new
            exact high
        · intro inside
          by_cases early : (rank : Int) < weight requests last.1
          · obtain ⟨request, member, found⟩ := rest.mpr early
            exact ⟨request, List.mem_append_left _ member, found⟩
          · exact ⟨_, List.mem_append_right _ (List.mem_singleton.mpr rfl), rfl, Int.not_lt.mp early, inside⟩
      · rw [if_neg same, Int.add_zero, ← rest]
        constructor
        · intro found
          obtain ⟨request, member, isItem, bounds⟩ := found
          rcases List.mem_append.mp member with old | new
          · exact ⟨request, old, isItem, bounds⟩
          · obtain rfl := List.mem_singleton.mp new
            exact absurd isItem same
        · intro found
          obtain ⟨request, member, isItem⟩ := found
          exact ⟨request, List.mem_append_left _ member, isItem⟩

-- The items a list of weights asks for, each as often as its weight says.
def expanded (requests : List (α × Int)) : List α := requests.flatMap fun request => List.replicate request.2.toNat request.1

theorem count_expanded (natural : ∀ request ∈ requests, 0 ≤ request.2) (item : α) :
    ((expanded requests).count item : Int) = weight requests item := by
  induction requests with
  | nil => rfl
  | cons request requests ih =>
      have here := natural request List.mem_cons_self
      have rest := ih fun other member => natural other (List.mem_cons_of_mem _ member)
      unfold expanded at rest ⊢
      rw [List.flatMap_cons, List.count_append, weight_cons, ← rest]
      by_cases same : request.1 = item
      · subst same
        rw [List.count_replicate_self, if_pos rfl]
        omega
      · rw [if_neg same, List.count_replicate, if_neg (by simpa using same)]
        omega

-- Taking the first copies of each requested item finds all of them exactly
-- when no item is requested more often than it is there.
theorem below_complete (natural : ∀ request ∈ requests, 0 ≤ request.2) (items : List α) :
    (below (weight requests) items).length = (expanded requests).length ↔
      ∀ item, weight requests item ≤ (items.count item : Int) := by
  have asked := count_expanded requests natural
  constructor
  · intro same item
    have within : (below (weight requests) items).Subperm (expanded requests) := by
      rw [List.subperm_iff_count]
      intro other
      have wanted := asked other
      rw [count_below]
      omega
    have whole := (within.perm_of_length_le (Nat.le_of_eq same.symm)).count_eq item
    have wanted := asked item
    rw [count_below] at whole
    omega
  · intro covered
    apply List.Perm.length_eq
    rw [List.perm_iff_count]
    intro item
    have wanted := asked item
    have enough := covered item
    rw [count_below]
    omega

-- The copies the negative weights take away, and the copies any weights touch.
def retractions (changes : List (α × Int)) : List (α × Int) :=
  (changes.filter fun change => decide (change.2 < 0)).map fun change => (change.1, -change.2)

def units (changes : List (α × Int)) : Nat := (changes.map fun change => change.2.natAbs).sum

-- A page takes the first of the pending weights, the last of them perhaps in part.
inductive Cut : List (α × Int) → List (α × Int) → List (α × Int) → Prop where
  | stop (rest : List (α × Int)) : Cut rest [] rest
  | whole (change : α × Int) (rest page left : List (α × Int)) (present : change.2 ≠ 0) (further : Cut rest page left) :
      Cut (change :: rest) (change :: page) left
  | part (item : α) (applied remaining : Int) (rest : List (α × Int))
      (sameSign : (0 < applied ∧ 0 < remaining) ∨ (applied < 0 ∧ remaining < 0)) :
      Cut ((item, applied + remaining) :: rest) [(item, applied)] ((item, remaining) :: rest)

omit [DecidableEq α] in
theorem retractions_positive (request : α × Int) (member : request ∈ retractions changes) :
    0 < request.2 := by
  obtain ⟨change, inside, rfl⟩ := List.mem_map.mp member
  have negative := of_decide_eq_true (List.mem_filter.mp inside).2
  change 0 < -change.2
  omega

theorem weight_retractions_cons (change : α × Int) (changes : List (α × Int)) (item : α) :
    weight (retractions (change :: changes)) item =
      (if change.1 = item ∧ change.2 < 0 then -change.2 else 0) + weight (retractions changes) item := by
  by_cases negative : change.2 < 0
  · have kept : retractions (change :: changes) = (change.1, -change.2) :: retractions changes := by
      simp [retractions, negative]
    rw [kept, weight_cons]
    by_cases same : change.1 = item
    · simp [same, negative]
    · simp [same]
  · have dropped : retractions (change :: changes) = retractions changes := by simp [retractions, negative]
    rw [dropped]
    simp [negative]

theorem weight_retractions_nonneg (item : α) : 0 ≤ weight (retractions changes) item := by
  induction changes with
  | nil => exact Int.le_refl 0
  | cons change changes ih =>
      rw [weight_retractions_cons]
      split
      · omega
      · omega

-- What is inserted less what is retracted is what was meant.
theorem weight_parts (item : α) :
    weight (changes.filter fun change => decide (0 < change.2)) item - weight (retractions changes) item =
      weight changes item := by
  induction changes with
  | nil => rfl
  | cons change changes ih =>
      rw [weight_retractions_cons, weight_cons, List.filter_cons]
      by_cases positive : 0 < change.2
      · simp only [positive, decide_true, if_true, weight_cons]
        have negative : ¬ (change.1 = item ∧ change.2 < 0) := by omega
        rw [if_neg negative]
        omega
      · simp only [positive, decide_false, Bool.false_eq_true, if_false]
        by_cases same : change.1 = item
        · by_cases negative : change.2 < 0
          · rw [if_pos ⟨same, negative⟩, if_pos same]
            omega
          · rw [if_neg (fun both => negative both.2), if_pos same]
            omega
        · rw [if_neg (fun both => same both.1), if_neg same]
          omega

omit [DecidableEq α] in
-- Nonzero weights touch the copies they insert and those they retract.
theorem units_parts (present : ∀ change ∈ changes, change.2 ≠ 0) :
    (expanded (changes.filter fun change => decide (0 < change.2))).length + (expanded (retractions changes)).length =
      units changes := by
  induction changes with
  | nil => rfl
  | cons change changes ih =>
      have rest := ih fun other member => present other (List.mem_cons_of_mem _ member)
      have nonzero := present change List.mem_cons_self
      unfold expanded retractions units at rest ⊢
      rw [List.map_cons, List.sum_cons]
      by_cases positive : 0 < change.2
      · have kept : ¬ change.2 < 0 := by omega
        simp only [List.filter_cons, positive, kept, decide_true, decide_false, if_true, Bool.false_eq_true, if_false,
          List.flatMap_cons, List.length_append, List.length_replicate] at rest ⊢
        omega
      · have negative : change.2 < 0 := by omega
        simp only [List.filter_cons, positive, negative, decide_true, decide_false, if_true, Bool.false_eq_true, if_false,
          List.map_cons, List.flatMap_cons, List.length_append, List.length_replicate] at rest ⊢
        omega

end

section Cuts

variable (whole page left : List (α × Int)) (cut : Cut whole page left)

include cut

theorem cut_weight (item : α) : weight page item + weight left item = weight whole item := by
  induction cut with
  | stop rest => simp
  | whole change rest page left present further ih =>
      rw [weight_cons, weight_cons]
      omega
  | part one applied remaining rest sameSign =>
      simp only [weight_cons, weight_nil]
      split
      · omega
      · omega

theorem cut_retractions (item : α) : weight (retractions page) item + weight (retractions left) item =
    weight (retractions whole) item := by
  induction cut with
  | stop rest => simp [retractions]
  | whole change rest page left present further ih =>
      rw [weight_retractions_cons, weight_retractions_cons]
      omega
  | part one applied remaining rest sameSign =>
      simp only [weight_retractions_cons]
      have none : weight (retractions ([] : List (α × Int))) item = 0 := rfl
      rw [none]
      by_cases same : one = item
      · rcases sameSign with both | both
        · simp only [same, true_and]
          rw [if_neg (by omega), if_neg (by omega), if_neg (by omega)]
          omega
        · simp only [same, true_and]
          rw [if_pos both.1, if_pos both.2, if_pos (by omega)]
          omega
      · simp [same]

omit [DecidableEq α] in
theorem cut_units : units page + units left = units whole := by
  induction cut with
  | stop rest => simp [units]
  | whole change rest page left present further ih =>
      simp only [units, List.map_cons, List.sum_cons] at ih ⊢
      omega
  | part one applied remaining rest sameSign =>
      simp only [units, List.map_cons, List.map_nil, List.sum_cons, List.sum_nil]
      omega

omit [DecidableEq α] in
theorem cut_present (change : α × Int) (member : change ∈ page) : change.2 ≠ 0 := by
  induction cut with
  | stop rest => cases member
  | whole first rest page left present further ih =>
      rcases List.mem_cons.mp member with rfl | later
      · exact present
      · exact ih later
  | part one applied remaining rest sameSign =>
      obtain rfl := List.mem_singleton.mp member
      rcases sameSign with both | both
      · exact Int.ne_of_gt both.1
      · exact Int.ne_of_lt both.1

omit [DecidableEq α] in
-- A page changes nothing against the sign of what is pending.
theorem cut_signed (change : α × Int) (member : change ∈ page) :
    ∃ pending ∈ whole, pending.1 = change.1 ∧ pending.2.sign = change.2.sign := by
  induction cut with
  | stop rest => cases member
  | whole first rest page left present further ih =>
      rcases List.mem_cons.mp member with rfl | later
      · exact ⟨_, List.mem_cons_self, rfl, rfl⟩
      · obtain ⟨pending, inside, same⟩ := ih later
        exact ⟨pending, List.mem_cons_of_mem _ inside, same⟩
  | part one applied remaining rest sameSign =>
      obtain rfl := List.mem_singleton.mp member
      refine ⟨_, List.mem_cons_self, rfl, ?_⟩
      rcases sameSign with both | both
      · rw [Int.sign_eq_one_of_pos both.1, Int.sign_eq_one_of_pos (by omega)]
      · rw [Int.sign_eq_neg_one_of_neg both.1, Int.sign_eq_neg_one_of_neg (by omega)]

end Cuts

end Copies
