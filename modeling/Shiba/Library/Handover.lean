import Shiba.Library.Weighted

set_option autoImplicit false

namespace Handover

open Weighted

universe u

variable {α : Type u} [DecidableEq α]

-- A slot shows at most one item. Where the item changes, the old one leaves
-- before the new one comes.
def legs (slot : Option α × Option α) : List (α × Int) :=
  if slot.1 = slot.2 then []
  else (slot.1.toList.map fun item => (item, (-1 : Int))) ++ slot.2.toList.map fun item => (item, (1 : Int))

def shows (shown : Option α) (item : α) : Int := if shown = some item then 1 else 0

def held (slots : List (Option α × Option α)) (item : α) : Int := (slots.map fun slot => shows slot.1 item).sum

def taken (slots : List (Option α × Option α)) (item : α) : Int := (slots.map fun slot => shows slot.2 item).sum

def Speaks (slot : Option α × Option α) (item : α) : Prop := slot.1 = some item ∨ slot.2 = some item

-- No item is in two slots.
def Apart (slots : List (Option α × Option α)) : Prop :=
  slots.Pairwise fun one other => ∀ item, Speaks one item → ¬ Speaks other item

theorem shows_range (shown : Option α) (item : α) : shows shown item = 0 ∨ shows shown item = 1 := by
  unfold shows
  split
  · exact Or.inr rfl
  · exact Or.inl rfl

theorem legs_weight (slot : Option α × Option α) (item : α) :
    weight (legs slot) item = shows slot.2 item - shows slot.1 item := by
  obtain ⟨old, new⟩ := slot
  unfold legs shows
  by_cases same : old = new
  · simp [same]
  · rw [if_neg same, weight_append]
    cases old <;> cases new <;> simp [weight_cons] <;> split_ifs <;> rfl

-- On the way the slot shows the old item, nothing or the new one.
theorem legs_prefix (slot : Option α × Option α) (item : α) (length : Nat) :
    shows slot.1 item + weight ((legs slot).take length) item = 0 ∨
      shows slot.1 item + weight ((legs slot).take length) item = 1 := by
  obtain ⟨old, new⟩ := slot
  by_cases same : old = new
  · have none : legs (old, new) = [] := if_pos same
    rw [none, List.take_nil, weight_nil, Int.add_zero]
    exact shows_range old item
  · have both : legs (old, new) =
        (old.toList.map fun item => (item, (-1 : Int))) ++ new.toList.map fun item => (item, (1 : Int)) := if_neg same
    rw [both]
    cases old with
    | none =>
        cases new with
        | none => exact absurd rfl same
        | some arriving =>
            cases length with
            | zero => exact Or.inl rfl
            | succ length => simp [shows, weight_cons, em']
    | some leaving =>
        cases new with
        | none =>
            cases length with
            | zero => simp [shows, em']
            | succ length => simp [shows, weight_cons]; split_ifs <;> simp
        | some arriving =>
            have differ : leaving ≠ arriving := fun equal => same (congrArg some equal)
            rcases length with _ | _ | length
            · simp [shows, em']
            · simp [shows, weight_cons]
              split_ifs <;> simp
            · simp only [shows, Option.toList_some, List.map_cons, List.map_nil, List.cons_append, List.nil_append,
                List.take_succ_cons, List.take_nil, weight_cons, weight_nil, Option.some.injEq]
              by_cases left : leaving = item
              · subst left
                simp [differ.symm]
              · simp [left, em']

theorem silent_legs {slot : Option α × Option α} {item : α} (silent : ¬ Speaks slot item) (length : Nat) :
    weight ((legs slot).take length) item = 0 ∧ shows slot.1 item = 0 ∧ shows slot.2 item = 0 := by
  have notOld : slot.1 ≠ some item := fun same => silent (Or.inl same)
  have notNew : slot.2 ≠ some item := fun same => silent (Or.inr same)
  refine ⟨?_, if_neg notOld, if_neg notNew⟩
  by_contra present
  obtain ⟨entry, member, same⟩ := List.mem_map.mp (List.mem_toFinset.mp (weight_support _ item present))
  have inside := List.mem_of_mem_take member
  unfold legs at inside
  split at inside
  · cases inside
  · rcases List.mem_append.mp inside with left | right
    · obtain ⟨old, isOld, rfl⟩ := List.mem_map.mp left
      exact notOld (by rw [← same]; simpa using isOld)
    · obtain ⟨new, isNew, rfl⟩ := List.mem_map.mp right
      exact notNew (by rw [← same]; simpa using isNew)

variable (slots : List (Option α × Option α))

theorem silent_slots (item : α) (silent : ∀ slot ∈ slots, ¬ Speaks slot item) :
    held slots item = 0 ∧ taken slots item = 0 ∧ ∀ length, weight ((slots.flatMap legs).take length) item = 0 := by
  refine ⟨sum_of_none _ _ fun slot member => (silent_legs (silent slot member) 0).2.1,
    sum_of_none _ _ fun slot member => (silent_legs (silent slot member) 0).2.2, ?_⟩
  intro length
  by_contra present
  obtain ⟨entry, member, same⟩ := List.mem_map.mp (List.mem_toFinset.mp (weight_support _ item present))
  obtain ⟨slot, inside, isLeg⟩ := List.mem_flatMap.mp (List.mem_of_mem_take member)
  apply silent slot inside
  unfold legs at isLeg
  split at isLeg
  · cases isLeg
  · rcases List.mem_append.mp isLeg with left | right
    · obtain ⟨old, isOld, rfl⟩ := List.mem_map.mp left
      exact Or.inl (by rw [← same]; simpa using isOld)
    · obtain ⟨new, isNew, rfl⟩ := List.mem_map.mp right
      exact Or.inr (by rw [← same]; simpa using isNew)

-- All legs together turn what was shown into what is shown.
theorem legs_total (item : α) :
    held slots item + weight (slots.flatMap legs) item = taken slots item := by
  induction slots with
  | nil => rfl
  | cons slot slots ih =>
      rw [List.flatMap_cons, weight_append, legs_weight]
      unfold held taken at ih ⊢
      rw [List.map_cons, List.sum_cons, List.map_cons, List.sum_cons]
      omega

-- At every point on the way an item is shown once or not at all.
theorem legs_running (apart : Apart slots) (item : α) (length : Nat) :
    held slots item + weight ((slots.flatMap legs).take length) item = 0 ∨
      held slots item + weight ((slots.flatMap legs).take length) item = 1 := by
  induction slots generalizing length with
  | nil => exact Or.inl (by simp [held])
  | cons slot slots ih =>
      obtain ⟨alone, apart⟩ := List.pairwise_cons.mp apart
      have later := ih apart
      have split : held (slot :: slots) item = shows slot.1 item + held slots item := by
        unfold held
        rw [List.map_cons, List.sum_cons]
      rw [List.flatMap_cons, List.take_append, weight_append, split]
      by_cases speaks : Speaks slot item
      · have others := silent_slots slots item fun other member => alone other member item speaks
        rw [others.1, others.2.2]
        have here := legs_prefix slot item length
        omega
      · obtain ⟨quiet, absent, _⟩ := silent_legs speaks length
        rw [quiet, absent]
        have rest := later (length - (legs slot).length)
        omega

end Handover
