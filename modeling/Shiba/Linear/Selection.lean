import Shiba.Linear.Transform

set_option autoImplicit false

namespace Shiba.Linear.Transform

open Budget Shiba.Stream Shiba.Execution

variable {Row Out : Type} (spec : TransformSpec Row Out)

@[simp] theorem image_nil : spec.image [] = [] := rfl

theorem image_append (before after : List (EffectRow Row)) :
    spec.image (before ++ after) = spec.image before ++ spec.image after := by
  simp only [TransformSpec.image, List.filter_append, List.map_append]

section

variable (rows : List (EffectRow Row))

-- One more row enters the image if it passes, and nothing else does.
theorem image_next (row : EffectRow Row) : spec.image (rows ++ [row]) =
    spec.image rows ++ (if spec.passes row then [spec.scanPlaceholder.emit row] else []) := by
  rw [image_append]
  cases passing : spec.passes row with
  | true => simp [TransformSpec.image, passing]
  | false => simp [TransformSpec.image, passing]

theorem image_length_le (count : Nat) :
    (spec.image (rows.take count)).length ≤ (spec.image rows).length := by
  have whole := congrArg spec.image (List.take_append_drop count rows)
  rw [image_append] at whole
  rw [← whole, List.length_append]
  exact Nat.le_add_right _ _

theorem image_bytes_le (count : Nat) :
    spec.scanPlaceholder.outputBytes (spec.image (rows.take count)) ≤ spec.scanPlaceholder.outputBytes (spec.image rows) := by
  have whole := congrArg spec.image (List.take_append_drop count rows)
  rw [image_append] at whole
  rw [← whole]
  simp only [ScanSpec.outputBytes, List.map_append, List.sum_append]
  exact Nat.le_add_right _ _

end

-- A row is selected only after every row before it.
theorem selects_down {maxRows maxBytes : Nat} {rows : List (EffectRow Row)} {index : Nat}
    (selected : selects spec maxRows maxBytes (rows.take (index + 1 + 1)) = true) :
    selects spec maxRows maxBytes (rows.take (index + 1)) = true := by
  by_cases inside : index + 1 < rows.length
  · have taken : rows.take (index + 1 + 1) = rows.take (index + 1) ++ [rows[index + 1]] :=
      List.take_succ_eq_append_getElem inside
    have fewer : (rows.take (index + 1 + 1)).take (index + 1) = rows.take (index + 1) := by
      rw [List.take_take, Nat.min_eq_left (Nat.le_succ _)]
    have rowsLe := image_length_le spec (rows.take (index + 1 + 1)) (index + 1)
    have bytesLe := image_bytes_le spec (rows.take (index + 1 + 1)) (index + 1)
    rw [fewer] at rowsLe bytesLe
    simp only [selects, Bool.or_eq_true, Bool.and_eq_true, decide_eq_true_eq] at selected ⊢
    rcases selected with (none | within) | first
    · exact .inl (.inl (Nat.le_zero.mp (none ▸ rowsLe)))
    · exact .inl (.inr ⟨Nat.le_trans rowsLe within.1, Nat.le_trans bytesLe within.2⟩)
    · have passing : spec.passes rows[index + 1] = true := by
        have last := first.1
        rw [taken, List.getLast?_append] at last
        simpa using last
      have single := first.2
      rw [taken, image_next, passing, if_pos rfl, List.length_append, List.length_singleton] at single
      exact .inl (.inl (Nat.succ.inj single))
  · have same : rows.take (index + 1 + 1) = rows.take (index + 1) := by
      rw [List.take_of_length_le (by omega), List.take_of_length_le (by omega)]
    rwa [same] at selected

-- What a data step takes of the rows it has left: a non-empty prefix, within
-- the input budget, whose image is within the output budget and target.
structure PrefixTaken (spec : TransformSpec Row Out) (budget : WorkBudget) (output : OutputState Out)
    (rows page : List (EffectRow Row)) : Prop where
  isPrefix : ∃ count, page = rows.take count
  some : page ≠ []
  input : inputFits spec.scanPlaceholder budget page
  output : outputFits spec.scanPlaceholder budget output (spec.image page)

variable (budget : WorkBudget) (output : OutputState Out) (rows : List (EffectRow Row))

theorem selected_image_fits (target : 0 < output.targetRows) (taken : List (EffectRow Row))
    (selected : selects spec (min budget.maxOutputRows output.targetRows) (min budget.maxOutputBytes output.targetBytes)
      taken = true) : outputFits spec.scanPlaceholder budget output (spec.image taken) := by
  have room : 1 ≤ min budget.maxOutputRows output.targetRows := Nat.lt_min.mpr ⟨budget.outputRowsPositive, target⟩
  simp only [selects, Bool.or_eq_true, Bool.and_eq_true, decide_eq_true_eq] at selected
  rcases selected with (none | within) | first
  · have empty := List.length_eq_zero_iff.mp none
    rw [empty]
    exact ⟨Nat.zero_le _, .inl (Nat.zero_le _)⟩
  · exact ⟨within.1, .inl within.2⟩
  · exact ⟨first.2 ▸ room, .inr first.2⟩

theorem selected_rows_taken (target : 0 < output.targetRows) (present : rows ≠ []) :
    PrefixTaken spec budget output rows (selectedRows spec budget output rows) := by
  obtain ⟨bound, bounded, positive, fits⟩ := bounded_prefix spec.scanPlaceholder budget rows
  have someBound := positive present
  have somePrefix : ∀ count, 0 < count → rows.take count ≠ [] := by
    intro count some
    simp only [ne_eq, List.take_eq_nil_iff, not_or]
    exact ⟨Nat.ne_of_gt some, present⟩
  obtain ⟨count, page, some, within⟩ := filter_index_prefix (fun index => selects spec
      (min budget.maxOutputRows output.targetRows) (min budget.maxOutputBytes output.targetBytes)
      ((rows.take bound).take (index + 1)))
    (fun index => selects_down spec) (rows.take bound) 0
  have isPage : selectedRows spec budget output rows = rows.take (min count bound) := by
    unfold boundedRows readFit at bounded
    rw [← List.take_take, ← page]
    unfold selectedRows
    simp only [bounded]
  have firstRow : selects spec (min budget.maxOutputRows output.targetRows) (min budget.maxOutputBytes output.targetBytes)
      ((rows.take bound).take (0 + 1)) = true := by
    cases whole : rows.take bound with
    | nil => exact absurd whole (somePrefix bound someBound)
    | cons row rest =>
        have single : (row :: rest).take (0 + 1) = [] ++ [row] := rfl
        rw [single, selects, image_next]
        cases passing : spec.passes row with
        | true => simp [passing]
        | false => simp
  have someCount := some (somePrefix bound someBound) firstRow
  have low : 0 < min count bound := Nat.lt_min.mpr ⟨someCount, someBound⟩
  rw [isPage]
  refine ⟨⟨_, rfl⟩, somePrefix _ low, ?_, ?_⟩
  · exact fits _ (Nat.min_le_right _ _) (List.length_pos_iff.mpr (somePrefix _ low))
  · have last := within (min count bound - 1) (by omega)
    have back : 0 + (min count bound - 1) + 1 = min count bound := by omega
    rw [back, List.take_take, Nat.min_eq_left (Nat.min_le_right _ _)] at last
    exact selected_image_fits spec budget output target _ last

end Shiba.Linear.Transform
