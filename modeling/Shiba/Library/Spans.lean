import Mathlib.Tactic

set_option autoImplicit false

namespace Spans

-- The integers from a first to a last one; none where the last lies before the first.
structure Span where
  first : Int
  last : Int
deriving DecidableEq, Repr

def Span.size (span : Span) : Nat := (span.last - span.first + 1).toNat

def Span.rows (span : Span) : List Int := (List.range span.size).map fun index : Nat => span.first + index

def rows (spans : List Span) : List Int := spans.flatMap Span.rows

def Span.normal (span : Span) : Option Span := if span.first ≤ span.last then some span else none

-- Spans that end before the next one starts.
def Ordered (spans : List Span) : Prop := spans.Pairwise fun earlier later => earlier.last < later.first

theorem mem_span (span : Span) (row : Int) : row ∈ span.rows ↔ span.first ≤ row ∧ row ≤ span.last := by
  rw [Span.rows, List.mem_map]
  refine ⟨?_, ?_⟩
  · rintro ⟨index, inside, rfl⟩
    rw [List.mem_range, Span.size] at inside
    omega
  · rintro ⟨low, high⟩
    refine ⟨(row - span.first).toNat, ?_, ?_⟩
    · rw [List.mem_range, Span.size]
      omega
    · omega

section

variable (spans : List Span)

theorem mem_rows (row : Int) : row ∈ rows spans ↔ ∃ span ∈ spans, span.first ≤ row ∧ row ≤ span.last := by
  rw [rows, List.mem_flatMap]
  simp only [mem_span]

theorem span_length (span : Span) : span.rows.length = span.size := by rw [Span.rows, List.length_map, List.length_range]

theorem span_get (span : Span) (index : Nat) :
    span.rows[index]? = if index < span.size then some (span.first + index) else none := by
  rw [Span.rows, List.getElem?_map]
  by_cases inside : index < span.size
  · rw [List.getElem?_range inside, if_pos inside]
    rfl
  · rw [List.getElem?_eq_none (by rw [List.length_range]; omega), if_neg inside]
    rfl

theorem span_increasing (span : Span) : span.rows.Pairwise (· < ·) := by
  rw [Span.rows, List.pairwise_map]
  apply List.Pairwise.imp _ List.pairwise_lt_range
  intro earlier later less
  omega

theorem rows_increasing (ordered : Ordered spans) : (rows spans).Pairwise (· < ·) := by
  induction spans with
  | nil => exact List.Pairwise.nil
  | cons span rest ih =>
      obtain ⟨before, others⟩ := List.pairwise_cons.mp ordered
      rw [rows, List.flatMap_cons, List.pairwise_append]
      refine ⟨span_increasing span, ih others, ?_⟩
      intro earlier here later there
      obtain ⟨_, high⟩ := (mem_span span earlier).mp here
      obtain ⟨other, member, low, _⟩ := (mem_rows rest later).mp there
      have gap := before other member
      omega

theorem normal_rows : rows (spans.filterMap Span.normal) = rows spans := by
  induction spans with
  | nil => rfl
  | cons span rest ih =>
      by_cases some : span.first ≤ span.last
      · rw [List.filterMap_cons_some (by rw [Span.normal, if_pos some]), rows, List.flatMap_cons]
        exact congrArg (span.rows ++ ·) ih
      · have empty : span.rows = [] := by
          have size : span.size = 0 := by
            rw [Span.size]
            omega
          rw [Span.rows, size]
          rfl
        rw [List.filterMap_cons_none (by rw [Span.normal, if_neg some]), ih, rows, rows, List.flatMap_cons, empty, List.nil_append]

theorem normal_ordered (ordered : Ordered spans) : Ordered (spans.filterMap Span.normal) := by
  rw [Ordered, List.pairwise_filterMap]
  refine List.Pairwise.imp ?_ ordered
  intro earlier later gap first isFirst second isSecond
  rw [Span.normal, Option.ite_none_right_eq_some] at isFirst isSecond
  obtain ⟨_, ⟨⟩⟩ := isFirst
  obtain ⟨_, ⟨⟩⟩ := isSecond
  exact gap

theorem normal_filled : ∀ span ∈ spans.filterMap Span.normal, span.first ≤ span.last ∧ span ∈ spans := by
  intro span member
  obtain ⟨other, inside, isSpan⟩ := List.mem_filterMap.mp member
  rw [Span.normal, Option.ite_none_right_eq_some] at isSpan
  obtain ⟨filled, ⟨⟩⟩ := isSpan
  exact ⟨filled, inside⟩

end

section Keys

universe u

variable {α : Type u} (key : α → Int)

-- Lists of increasing keys are equal when they have the same members.
theorem increasing_eq (first second : List α) (one : first.Pairwise fun a b => key a < key b)
    (two : second.Pairwise fun a b => key a < key b) (same : ∀ item, item ∈ first ↔ item ∈ second) : first = second := by
  have distinct (items : List α) (increasing : items.Pairwise fun a b => key a < key b) : items.Nodup :=
    increasing.imp fun less equal => ne_of_lt less (congrArg key equal)
  apply List.Perm.eq_of_pairwise _ one two
  · rw [List.perm_ext_iff_of_nodup (distinct first one) (distinct second two)]
    exact same
  · intro a b _ _ less more
    exact absurd (less.trans more) (lt_irrefl _)

-- The key of the last of so many items.
def lastKey (items : List α) (count : Nat) : Option Int := if count = 0 then none else items[count - 1]?.map key

variable {key}

theorem last_key_none (items : List α) (count : Nat) (inside : count ≤ items.length) :
    (lastKey key items count).isNone = decide (count = 0) := by
  rw [lastKey]
  by_cases start : count = 0
  · rw [if_pos start, decide_eq_true start]
    rfl
  · rw [if_neg start, decide_eq_false start, List.getElem?_eq_getElem (by omega)]
    rfl

theorem last_key_less (items : List α) (increasing : items.Pairwise fun a b => key a < key b) (fewer more : Nat)
    (positive : 0 < fewer) (less : fewer < more) (inside : more ≤ items.length) :
    ∃ first second, lastKey key items fewer = some first ∧ lastKey key items more = some second ∧ first < second := by
  rw [lastKey, lastKey, if_neg (by omega), if_neg (by omega), List.getElem?_eq_getElem (by omega), List.getElem?_eq_getElem (by omega)]
  exact ⟨_, _, rfl, rfl, List.pairwise_iff_getElem.mp increasing _ _ (by omega) (by omega) (by omega)⟩

-- What lies behind that key is the rest.
theorem filter_behind (items : List α) (increasing : items.Pairwise fun a b => key a < key b) (count : Nat)
    (inside : count ≤ items.length) :
    (items.filter fun item => (lastKey key items count).all fun last => decide (last < key item)) = items.drop count := by
  by_cases start : count = 0
  · rw [start, lastKey, if_pos rfl, List.drop_zero, List.filter_eq_self]
    exact fun _ _ => rfl
  · have low : count - 1 < items.length := by omega
    rw [lastKey, if_neg start, List.getElem?_eq_getElem low, Option.map_some]
    simp only [Option.all_some]
    have split := List.take_append_drop count items
    rw [← split, List.pairwise_append] at increasing
    obtain ⟨before, _, apart⟩ := increasing
    have here : items[count - 1] ∈ items.take count := by
      rw [List.mem_take_iff_getElem]
      exact ⟨count - 1, by omega, rfl⟩
    have first : ((items.take count).filter fun item => decide (key items[count - 1] < key item)) = [] := by
      rw [List.filter_eq_nil_iff]
      intro item member
      rw [decide_eq_true_eq, not_lt]
      obtain ⟨index, bound, rfl⟩ := List.getElem_of_mem member
      rw [List.length_take] at bound
      rw [List.getElem_take]
      rcases Nat.lt_or_ge index (count - 1) with earlier | last
      · have less := List.pairwise_iff_getElem.mp before index (count - 1) (by rw [List.length_take]; omega)
          (by rw [List.length_take]; omega) earlier
        rw [List.getElem_take, List.getElem_take] at less
        exact le_of_lt less
      · have same : index = count - 1 := by omega
        simp only [same, le_refl]
    have second : ((items.drop count).filter fun item => decide (key items[count - 1] < key item)) = items.drop count := by
      rw [List.filter_eq_self]
      intro item member
      exact decide_eq_true (apart _ here item member)
    refine (congrArg (List.filter fun item => decide (key items[count - 1] < key item)) split).symm.trans ?_
    rw [List.filter_append, first, second, List.nil_append]

end Keys

end Spans
