import Shiba.Linear.Scan

set_option autoImplicit false

namespace Shiba.Linear

open Budget Shiba.Stream Shiba.Execution

variable {Row Out : Type}

theorem validate_dimension_ok (rows bytes maxRows maxBytes : Nat) (name : String) (within : rows ≤ maxRows)
    (fits : bytes ≤ maxBytes ∨ rows = 1) : validateDimension rows bytes maxRows maxBytes name = .ok () := by
  unfold validateDimension
  rw [refuse_bind_ok, refuse_ok]
  refine ⟨decide_eq_false (Nat.not_lt.mpr within), ?_⟩
  rcases fits with small | single
  · simp [Nat.not_lt.mpr small]
  · simp [single]

theorem usage_valid (usage : WorkUsage) (budget : WorkBudget)
    (input : usage.inputRows ≤ budget.maxInputRows ∧ (usage.inputBytes ≤ budget.maxInputBytes ∨ usage.inputRows = 1))
    (output : usage.outputRows ≤ budget.maxOutputRows ∧
      (usage.outputBytes ≤ budget.maxOutputBytes ∨ usage.outputRows = 1)) : usage.validate budget = .ok () := by
  unfold WorkUsage.validate
  rw [validate_dimension_ok _ _ _ _ _ input.1 input.2]
  exact validate_dimension_ok _ _ _ _ _ output.1 output.2

theorem usage_none (budget : WorkBudget) : WorkUsage.validate {} budget = .ok () :=
  usage_valid {} budget ⟨Nat.zero_le _, .inl (Nat.zero_le _)⟩ ⟨Nat.zero_le _, .inl (Nat.zero_le _)⟩

def readFit (spec : ScanSpec Row Out) (budget : WorkBudget) (taken : List (EffectRow Row)) : Bool :=
  decide (spec.sourceBytes taken ≤ budget.maxInputBytes)

theorem read_fit_down (spec : ScanSpec Row Out) (budget : WorkBudget) (rows : List (EffectRow Row)) (index : Nat)
    (fits : readFit spec budget (rows.take (index + 1)) = true) : readFit spec budget (rows.take index) = true := by
  apply decide_eq_true
  exact take_sum_le (of_decide_eq_true fits)

theorem output_bytes_down {spec : ScanSpec Row Out} {α : Type} {image : α → EffectRow Out} {limit : Nat} {rows : List α}
    {index : Nat} (fits : spec.outputBytes ((rows.take (index + 1)).map image) ≤ limit) :
    spec.outputBytes ((rows.take index).map image) ≤ limit := by
  simp only [ScanSpec.outputBytes, List.map_map] at fits ⊢
  exact take_sum_le fits

-- The rows and bytes of one page within its limits; a single row may be oversized.
structure PageFits (rows bytes maxRows maxBytes : Nat) : Prop where
  counted : rows ≤ maxRows
  sized : bytes ≤ maxBytes ∨ rows = 1

def inputFits (spec : ScanSpec Row Out) (budget : WorkBudget) (rows : List (EffectRow Row)) : Prop :=
  PageFits rows.length (spec.sourceBytes rows) budget.maxInputRows budget.maxInputBytes

def outputFits (spec : ScanSpec Row Out) (budget : WorkBudget) (output : OutputState Out) (rows : List (EffectRow Out)) :
    Prop :=
  PageFits rows.length (spec.outputBytes rows) (min budget.maxOutputRows output.targetRows)
    (min budget.maxOutputBytes output.targetBytes)

-- The whole rest of a chunk fits into one step.
def restFits (spec : ScanSpec Row Out) (budget : WorkBudget) (output : OutputState Out) (rows : List (EffectRow Row))
    (emitRows : Bool) : Prop :=
  inputFits spec budget rows ∧ (emitRows = true → outputFits spec budget output (rows.map spec.emit))

section Transform

variable (spec : ScanSpec Row Out) (budget : WorkBudget) (output : OutputState Out) (rows : List (EffectRow Row))

-- The rows a transform step may read.
def boundedRows (spec : ScanSpec Row Out) (budget : WorkBudget) (rows : List (EffectRow Row)) : List (EffectRow Row) :=
  withinBudget (readFit spec budget) (rows.take budget.maxInputRows)

def emittedFit (spec : ScanSpec Row Out) (budget : WorkBudget) (output : OutputState Out) (taken : List (EffectRow Row)) :
    Bool :=
  decide (taken.length ≤ min budget.maxOutputRows output.targetRows)
    && decide (spec.outputBytes (taken.map spec.emit) ≤ min budget.maxOutputBytes output.targetBytes)

theorem transform_page_emits : transformPage spec budget output rows true =
    withinBudget (emittedFit spec budget output) (boundedRows spec budget rows) := rfl

theorem transform_page_reads : transformPage spec budget output rows false = boundedRows spec budget rows := rfl

theorem emitted_fit_down (rows : List (EffectRow Row)) (index : Nat)
    (fits : emittedFit spec budget output (rows.take (index + 1)) = true) :
    emittedFit spec budget output (rows.take index) = true := by
  simp only [emittedFit, Bool.and_eq_true, decide_eq_true_eq] at fits ⊢
  refine ⟨Nat.le_trans ?_ fits.1, output_bytes_down fits.2⟩
  simp only [List.length_take]
  omega

theorem bounded_prefix : ∃ count, boundedRows spec budget rows = rows.take count ∧ (rows ≠ [] → 0 < count) ∧
    ∀ taken, taken ≤ count → 0 < (rows.take taken).length → inputFits spec budget (rows.take taken) := by
  obtain ⟨count, bounded, positive, fits⟩ := within_budget_prefix _ (rows.take budget.maxInputRows)
    (read_fit_down spec budget _)
  refine ⟨min count budget.maxInputRows, ?_, ?_, ?_⟩
  · unfold boundedRows
    rw [bounded, List.take_take]
  · intro present
    have candidates : rows.take budget.maxInputRows ≠ [] := by
      simp only [ne_eq, List.take_eq_nil_iff, not_or]
      exact ⟨Nat.ne_of_gt budget.inputRowsPositive, present⟩
    have some := positive candidates
    have limit := budget.inputRowsPositive
    omega
  · intro taken within some
    rw [List.length_take] at some
    constructor
    · rw [List.length_take]
      omega
    · by_cases several : 1 < count
      · have whole := of_decide_eq_true (fits several)
        rw [List.take_take] at whole
        refine .inl (Nat.le_trans ?_ whole)
        exact ((List.take_sublist_take_left within).map _).sum_le_sum fun _ _ => Nat.zero_le _
      · refine .inr ?_
        rw [List.length_take]
        omega

-- What a step takes of the rows it has left: a non-empty prefix within its budgets.
structure PageTaken (spec : ScanSpec Row Out) (budget : WorkBudget) (output : OutputState Out)
    (rows page : List (EffectRow Row)) (emitRows : Bool) : Prop where
  isPrefix : ∃ count, page = rows.take count
  some : page ≠ []
  input : inputFits spec budget page
  output : emitRows = true → outputFits spec budget output (page.map spec.emit)

theorem transform_page_taken (target : 0 < output.targetRows) (present : rows ≠ []) (emitRows : Bool) :
    PageTaken spec budget output rows (transformPage spec budget output rows emitRows) emitRows := by
  obtain ⟨bound, bounded, positive, fits⟩ := bounded_prefix spec budget rows
  have somePrefix : ∀ count, 0 < count → rows.take count ≠ [] := by
    intro count some
    simp only [ne_eq, List.take_eq_nil_iff, not_or]
    exact ⟨Nat.ne_of_gt some, present⟩
  have fitting : ∀ count, 0 < count → count ≤ bound → inputFits spec budget (rows.take count) := fun count some within =>
    fits count within (List.length_pos_iff.mpr (somePrefix count some))
  cases emitRows with
  | false =>
      rw [transform_page_reads, bounded]
      exact ⟨⟨bound, rfl⟩, somePrefix bound (positive present), fitting bound (positive present) (Nat.le_refl bound),
        fun wrong => by cases wrong⟩
  | true =>
      rw [transform_page_emits, bounded]
      obtain ⟨count, page, some, whole⟩ := within_budget_prefix _ (rows.take bound) (emitted_fit_down spec budget output _)
      have both := some (somePrefix bound (positive present))
      have low : 0 < min count bound := Nat.lt_min.mpr ⟨both, positive present⟩
      rw [page, List.take_take]
      refine ⟨⟨min count bound, rfl⟩, somePrefix _ low, fitting _ low (Nat.min_le_right _ _), fun _ => ?_⟩
      by_cases several : 1 < count
      · have kept := whole several
        rw [List.take_take] at kept
        simp only [emittedFit, Bool.and_eq_true, decide_eq_true_eq] at kept
        refine ⟨?_, .inl kept.2⟩
        rw [List.length_map]
        exact kept.1
      · have length : ((rows.take (min count bound)).map spec.emit).length = 1 := by
          have long := List.length_pos_iff.mpr (somePrefix _ low)
          rw [List.length_map]
          rw [List.length_take] at long ⊢
          omega
        refine ⟨?_, .inr length⟩
        rw [length]
        exact Nat.lt_min.mpr ⟨budget.outputRowsPositive, target⟩

theorem prefix_whole {α : Type} (items : List α) (count : Nat) : (items.take count).length = items.length ↔
    items.take count = items := by
  constructor
  · intro length
    rw [List.length_take] at length
    exact List.take_of_length_le (by omega)
  · intro same
    rw [same]

-- A step finishes its chunk exactly when the rest of it fits.
theorem transform_page_whole (target : 0 < output.targetRows) (present : rows ≠ []) (emitRows : Bool) :
    (transformPage spec budget output rows emitRows).length = rows.length ↔
      restFits spec budget output rows emitRows := by
  have taken := transform_page_taken spec budget output rows target present emitRows
  obtain ⟨count, isPrefix⟩ := taken.isPrefix
  rw [isPrefix, prefix_whole, ← isPrefix]
  constructor
  · intro whole
    have input := taken.input
    have emitted := taken.output
    rw [whole] at input emitted
    exact ⟨input, emitted⟩
  · rintro ⟨input, emitted⟩
    have length := List.length_pos_iff.mpr present
    have bounded : boundedRows spec budget rows = rows := by
      unfold boundedRows
      rw [List.take_of_length_le input.counted, within_budget_whole _ _ (read_fit_down spec budget _)]
      rcases input.sized with small | single
      · exact .inr (decide_eq_true small)
      · exact .inl (Nat.le_of_eq single)
    cases emitRows with
    | false => rw [transform_page_reads, bounded]
    | true =>
        rw [transform_page_emits, bounded, within_budget_whole _ _ (emitted_fit_down spec budget output _)]
        have fits := emitted rfl
        have within := fits.counted
        rw [List.length_map] at within
        rcases fits.sized with small | single
        · refine .inr ?_
          simp only [emittedFit, Bool.and_eq_true, decide_eq_true_eq]
          exact ⟨within, small⟩
        · rw [List.length_map] at single
          exact .inl (Nat.le_of_eq single)

end Transform

def spoolFit (spec : ScanSpec Row Out) (limit : Nat) (taken : Bootstrap Out) : Bool :=
  decide (spec.outputBytes (bootstrapRows taken) ≤ limit)

theorem spool_fit_down (spec : ScanSpec Row Out) (limit : Nat) (rows : Bootstrap Out) (index : Nat)
    (fits : spoolFit spec limit (rows.take (index + 1)) = true) : spoolFit spec limit (rows.take index) = true :=
  decide_eq_true (output_bytes_down (of_decide_eq_true fits))

theorem bootstrap_page_taken (spec : ScanSpec Row Out) (budget : WorkBudget) (output : OutputState Out)
    (target : 0 < output.targetRows) (bootstrap : Bootstrap Out) (next : Nat) :
    ∃ count, bootstrapPage spec budget output bootstrap next =
        (bootstrap.filter fun row => decide (next ≤ row.1)).take count ∧
      ((bootstrap.filter fun row => decide (next ≤ row.1)) ≠ [] →
        0 < count ∧
        PageFits (bootstrapPage spec budget output bootstrap next).length
          (spec.outputBytes (bootstrapRows (bootstrapPage spec budget output bootstrap next)))
          (min (min budget.maxInputRows budget.maxOutputRows) output.targetRows)
          (min (min budget.maxInputBytes budget.maxOutputBytes) output.targetBytes)) := by
  generalize candidates : (bootstrap.filter fun row => decide (next ≤ row.1)) = spool
  obtain ⟨count, page, some, whole⟩ := within_budget_prefix _
    (spool.take (min (min budget.maxInputRows budget.maxOutputRows) output.targetRows))
    (spool_fit_down spec (min (min budget.maxInputBytes budget.maxOutputBytes) output.targetBytes) _)
  have limit : 0 < min (min budget.maxInputRows budget.maxOutputRows) output.targetRows :=
    Nat.lt_min.mpr ⟨Nat.lt_min.mpr ⟨budget.inputRowsPositive, budget.outputRowsPositive⟩, target⟩
  have isPage : bootstrapPage spec budget output bootstrap next =
      spool.take (min count (min (min budget.maxInputRows budget.maxOutputRows) output.targetRows)) := by
    rw [← List.take_take, ← page, ← candidates]
    rfl
  refine ⟨_, isPage, fun present => ?_⟩
  have positive := some (by
    simp only [ne_eq, List.take_eq_nil_iff, not_or]
    exact ⟨Nat.ne_of_gt limit, present⟩)
  have length := List.length_pos_iff.mpr present
  refine ⟨Nat.lt_min.mpr ⟨positive, limit⟩, ?_⟩
  rw [isPage]
  constructor
  · rw [List.length_take]
    omega
  · by_cases several : 1 < count
    · have kept := of_decide_eq_true (whole several)
      rw [List.take_take] at kept
      exact .inl kept
    · refine .inr ?_
      rw [List.length_take]
      omega

end Shiba.Linear
