import Mathlib.Tactic

set_option autoImplicit false

namespace Weighted

universe u v

variable {α : Type u}

-- A bag as it is written down: items with signed weights, any item any number of times.
def total (items : List (α × Int)) (chosen : α → Bool) : Int :=
  (items.map fun item => if chosen item.1 then item.2 else 0).sum

@[simp] theorem total_nil (chosen : α → Bool) : total [] chosen = 0 := rfl

theorem total_cons (item : α × Int) (items : List (α × Int)) (chosen : α → Bool) :
    total (item :: items) chosen = (if chosen item.1 then item.2 else 0) + total items chosen := rfl

theorem total_append (first second : List (α × Int)) (chosen : α → Bool) :
    total (first ++ second) chosen = total first chosen + total second chosen := by
  simp [total]

section

variable {β : Type v} (parts : List β) (value : β → Int)

theorem total_flat_map (items : β → List (α × Int)) (chosen : α → Bool) :
    total (parts.flatMap items) chosen = (parts.map fun part => total (items part) chosen).sum := by
  induction parts with
  | nil => rfl
  | cons part parts ih => rw [List.flatMap_cons, total_append, ih, List.map_cons, List.sum_cons]

-- Of parts that each say something of their own only, one part speaks about an item.
theorem sum_of_one (one : β) (member : one ∈ parts) (unique : parts.Nodup)
    (others : ∀ part ∈ parts, part ≠ one → value part = 0) :
    (parts.map value).sum = value one := by
  induction parts with
  | nil => cases member
  | cons head tail ih =>
      rw [List.map_cons, List.sum_cons]
      obtain ⟨fresh, unique⟩ := List.nodup_cons.mp unique
      rcases List.mem_cons.mp member with rfl | later
      · have rest : (tail.map value).sum = 0 := by
          apply List.sum_eq_zero
          intro number found
          obtain ⟨part, inside, rfl⟩ := List.mem_map.mp found
          exact others part (List.mem_cons_of_mem _ inside) fun same => fresh (same ▸ inside)
        rw [rest, Int.add_zero]
      · have silent : value head = 0 := others head List.mem_cons_self fun same => fresh (same ▸ later)
        rw [silent, Int.zero_add]
        exact ih later unique fun part inside => others part (List.mem_cons_of_mem _ inside)

theorem sum_of_none (silent : ∀ part ∈ parts, value part = 0) :
    (parts.map value).sum = 0 := by
  apply List.sum_eq_zero
  intro number found
  obtain ⟨part, inside, rfl⟩ := List.mem_map.mp found
  exact silent part inside

end

variable [DecidableEq α]

def weight (items : List (α × Int)) (item : α) : Int := total items fun other => decide (other = item)

@[simp] theorem weight_nil (item : α) : weight [] item = 0 := rfl

theorem weight_cons (entry : α × Int) (items : List (α × Int)) (item : α) :
    weight (entry :: items) item = (if entry.1 = item then entry.2 else 0) + weight items item := by
  simp [weight, total_cons]

variable (first second items : List (α × Int))

theorem weight_append (item : α) :
    weight (first ++ second) item = weight first item + weight second item :=
  total_append first second _

theorem weight_single (one item : α) (amount : Int) : weight [(one, amount)] item = if one = item then amount else 0 := by
  simp [weight_cons]

-- A total is the sum of the weights of the chosen items.
theorem total_eq_sum (chosen : α → Bool) (support : Finset α) (covered : ∀ entry ∈ items, entry.1 ∈ support) :
    total items chosen = ∑ item ∈ support.filter fun item => chosen item = true, weight items item := by
  induction items with
  | nil => simp
  | cons entry items ih =>
      have here := covered entry List.mem_cons_self
      have rest := ih fun other member => covered other (List.mem_cons_of_mem _ member)
      simp only [total_cons, rest, weight_cons, Finset.sum_add_distrib, Finset.sum_ite_eq, Finset.mem_filter, here,
        true_and]

def support (items : List (α × Int)) : Finset α := (items.map Prod.fst).toFinset

theorem support_covers (entry : α × Int) (member : entry ∈ items) : entry.1 ∈ support items :=
  List.mem_toFinset.mpr (List.mem_map_of_mem member)

-- Two ways to write down one bag have the same totals.
theorem total_congr (same : ∀ item, weight first item = weight second item) (chosen : α → Bool) :
    total first chosen = total second chosen := by
  have left := total_eq_sum first chosen (support first ∪ support second)
    fun entry member => Finset.mem_union_left _ (support_covers first entry member)
  have right := total_eq_sum second chosen (support first ∪ support second)
    fun entry member => Finset.mem_union_right _ (support_covers second entry member)
  rw [left, right]
  exact Finset.sum_congr rfl fun item _ => same item

theorem total_nonneg (natural : ∀ item, 0 ≤ weight items item) (chosen : α → Bool) :
    0 ≤ total items chosen := by
  rw [total_eq_sum items chosen (support items) (support_covers items)]
  exact Finset.sum_nonneg fun item _ => natural item

-- A wider choice has the larger total.
theorem total_mono (natural : ∀ item, 0 ≤ weight items item) (fewer more : α → Bool)
    (wider : ∀ item, fewer item = true → more item = true) : total items fewer ≤ total items more := by
  rw [total_eq_sum items fewer (support items) (support_covers items),
    total_eq_sum items more (support items) (support_covers items)]
  apply Finset.sum_le_sum_of_subset_of_nonneg
  · exact fun item inside =>
      Finset.mem_filter.mpr ⟨(Finset.mem_filter.mp inside).1, wider item (Finset.mem_filter.mp inside).2⟩
  · exact fun item _ _ => natural item

theorem weight_support (item : α) (present : weight items item ≠ 0) : item ∈ support items := by
  induction items with
  | nil => exact absurd rfl present
  | cons entry items ih =>
      rw [support, List.map_cons, List.toFinset_cons, Finset.mem_insert]
      by_cases same : entry.1 = item
      · exact Or.inl same.symm
      · rw [weight_cons, if_neg same, Int.zero_add] at present
        exact Or.inr (ih present)

-- In a bag without negative weights a total is positive when one chosen item is there.
theorem total_pos_iff (natural : ∀ item, 0 ≤ weight items item) (chosen : α → Bool) :
    0 < total items chosen ↔ ∃ item, chosen item = true ∧ 0 < weight items item := by
  rw [total_eq_sum items chosen (support items) (support_covers items),
    Finset.sum_pos_iff_of_nonneg fun item _ => natural item]
  constructor
  · rintro ⟨item, inside, present⟩
    exact ⟨item, (Finset.mem_filter.mp inside).2, present⟩
  · rintro ⟨item, hit, present⟩
    exact ⟨item, Finset.mem_filter.mpr ⟨weight_support items item (by omega), hit⟩, present⟩

-- The weight of a chosen item is part of the total.
theorem weight_le_total (natural : ∀ item, 0 ≤ weight items item) (chosen : α → Bool) (item : α) (hit : chosen item = true) :
    weight items item ≤ total items chosen := by
  by_cases present : weight items item = 0
  · rw [present]
    exact total_nonneg items natural chosen
  · rw [total_eq_sum items chosen (support items) (support_covers items)]
    exact Finset.single_le_sum (fun other _ => natural other)
      (Finset.mem_filter.mpr ⟨weight_support items item present, hit⟩)

end Weighted
