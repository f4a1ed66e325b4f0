import Shiba.Window.Fold

set_option autoImplicit false

namespace Shiba.Window

open Shiba.Execution Spans

variable {Row Value : Type}

-- The rows of a frame, in the order of the partition.
def frameRows (partition : FoldPartition Row) (frame : FrameRow) : List (FoldRow Row) :=
  partition.rows.filter fun row => frame.spans.any fun span => decide (span.first ≤ row.ordinal) && decide (row.ordinal ≤ span.last)

variable (function : FoldFunction Row Value) (partition : FoldPartition Row) (frame : FrameRow)
  (tables : FoldTables Value)

theorem rows_rising : partition.rows.Pairwise fun a b => a.ordinal < b.ordinal := by
  rw [← List.pairwise_map (f := FoldRow.ordinal), partition.ordinals, List.pairwise_map]
  apply List.Pairwise.imp _ List.pairwise_lt_range
  intro earlier later less
  omega

theorem frame_rising :
    (frameRows partition frame).Pairwise fun a b => a.ordinal < b.ordinal := List.Pairwise.filter _ (rows_rising partition)

-- A limit on the parts keeps everything that a limit on the whole lets through.
theorem take_parts {α : Type} (limit : Nat) (first second third : List α) :
    (first.take limit ++ second.take limit ++ third.take limit).take limit = (first ++ second ++ third).take limit := by
  simp only [List.append_assoc, List.take_append, List.take_take, List.length_take]
  refine congrArg₂ _ ?_ (congrArg₂ _ ?_ ?_)
  · rw [Nat.min_self]
  · rw [List.take_eq_take_iff]
    omega
  · rw [List.take_eq_take_iff]
    omega

-- The rows of an interval behind the last one that was folded.
def intervalRest (partition : FoldPartition Row) (last : Option Int) (span : Option Span) : List (FoldRow Row) :=
  partition.rows.filter fun row =>
    (span.any fun span => decide (span.first ≤ row.ordinal) && decide (row.ordinal ≤ span.last)) &&
      last.all fun last => decide (last < row.ordinal)

theorem interval_bounds {partition : FoldPartition Row} {last : Option Int} {span : Option Span} {row : FoldRow Row}
    (member : row ∈ intervalRest partition last span) :
    ∃ found, span = some found ∧ found.first ≤ row.ordinal ∧ row.ordinal ≤ found.last := by
  obtain ⟨_, holds⟩ := List.mem_filter.mp member
  rw [Bool.and_eq_true, Option.any_eq_true] at holds
  obtain ⟨⟨found, isSpan, bounds⟩, _⟩ := holds
  rw [Bool.and_eq_true, decide_eq_true_eq, decide_eq_true_eq] at bounds
  exact ⟨found, isSpan, bounds⟩

-- The three limited intervals, in order, are the limited rest of the frame.
theorem fold_source (ordered : Ordered frame.spans) (last : Option Int) (rawRows : Nat) :
    foldSource partition frame last rawRows =
      ((frameRows partition frame).filter fun row => last.all fun last => decide (last < row.ordinal)).take rawRows := by
  have rising (span : Option Span) : (intervalRest partition last span).Pairwise fun a b => a.ordinal < b.ordinal :=
    List.Pairwise.filter _ (rows_rising partition)
  obtain ⟨firstTwo, _, third⟩ := List.pairwise_append.mp ordered
  obtain ⟨_, _, second⟩ := List.pairwise_append.mp firstTwo
  have joined : (intervalRest partition last frame.one ++ intervalRest partition last frame.two ++ intervalRest partition last frame.three).Pairwise fun a b => a.ordinal < b.ordinal := by
    rw [List.pairwise_append, List.pairwise_append]
    refine ⟨⟨rising _, rising _, ?_⟩, rising _, ?_⟩
    · intro a inOne b inTwo
      obtain ⟨one, isOne, _, high⟩ := interval_bounds inOne
      obtain ⟨two, isTwo, low, _⟩ := interval_bounds inTwo
      have gap := second one (Option.mem_toList.mpr isOne) two (Option.mem_toList.mpr isTwo)
      omega
    · intro a inEarlier b inThree
      obtain ⟨three, isThree, low, _⟩ := interval_bounds inThree
      rcases List.mem_append.mp inEarlier with inOne | inTwo
      · obtain ⟨one, isOne, _, high⟩ := interval_bounds inOne
        have gap := third one (List.mem_append_left _ (Option.mem_toList.mpr isOne)) three (Option.mem_toList.mpr isThree)
        omega
      · obtain ⟨two, isTwo, _, high⟩ := interval_bounds inTwo
        have gap := third two (List.mem_append_right _ (Option.mem_toList.mpr isTwo)) three (Option.mem_toList.mpr isThree)
        omega
  have whole : intervalRest partition last frame.one ++ intervalRest partition last frame.two ++ intervalRest partition last frame.three =
      (frameRows partition frame).filter fun row => last.all fun last => decide (last < row.ordinal) := by
    apply increasing_eq FoldRow.ordinal _ _ joined (List.Pairwise.filter _ (frame_rising partition frame))
    intro row
    have any (spans : Option Span) : (spans.toList.any fun span => decide (span.first ≤ row.ordinal) && decide (row.ordinal ≤ span.last)) =
        spans.any fun span => decide (span.first ≤ row.ordinal) && decide (row.ordinal ≤ span.last) := by
      cases spans with
      | none => rfl
      | some span => exact Bool.or_false _
    simp only [List.mem_append, List.mem_filter, frameRows, FrameRow.spans, List.any_append, any, intervalRest, Bool.and_eq_true,
      Bool.or_eq_true]
    tauto
  have limited : ((intervalRest partition last frame.one).take rawRows ++ (intervalRest partition last frame.two).take rawRows ++ (intervalRest partition last frame.three).take rawRows).Pairwise
      fun a b => a.ordinal ≤ b.ordinal := by
    have sublist : ((intervalRest partition last frame.one).take rawRows ++ (intervalRest partition last frame.two).take rawRows ++ (intervalRest partition last frame.three).take rawRows).Sublist
        (intervalRest partition last frame.one ++ intervalRest partition last frame.two ++ intervalRest partition last frame.three) :=
      ((List.take_sublist _ _).append (List.take_sublist _ _)).append (List.take_sublist _ _)
    exact (joined.sublist sublist).imp fun less => Int.le_of_lt less
  rw [foldSource, ← whole, ← take_parts]
  exact congrArg _ (limited.insertionSort_eq)

theorem fold_selected (allow : Bool) (maxRows maxBytes : Nat) (source : List (FoldRow Row)) :
    ∃ count, foldSelected allow maxRows maxBytes source = source.take count ∧ count ≤ source.length ∧ count ≤ maxRows ∧
      (foldBytes (source.take count) ≤ maxBytes ∨ (allow = true ∧ count = 1)) ∧
      (source ≠ [] → allow = true → 0 < maxRows → 0 < count) := by
  obtain ⟨count, same, filled, within⟩ := Budget.filter_index_prefix
    (fun index => decide (index + 1 ≤ maxRows) &&
      ((allow && decide (index = 0)) || decide (foldBytes (source.take (index + 1)) ≤ maxBytes)))
    (by
      intro index kept
      simp only [Bool.and_eq_true, Bool.or_eq_true, decide_eq_true_eq, Nat.succ_ne_zero, and_false, false_or] at kept ⊢
      exact ⟨by omega, .inr (Budget.take_sum_le kept.2)⟩)
    source 0
  have short : source.take (min count source.length) = source.take count := by
    rw [List.take_eq_take_iff]
    omega
  refine ⟨min count source.length, same.trans short.symm, Nat.min_le_right _ _, ?_, ?_, ?_⟩
  · by_cases none : count = 0
    · omega
    · have last := within (count - 1) (by omega)
      simp only [Bool.and_eq_true, decide_eq_true_eq] at last
      omega
  · rw [short]
    by_cases none : count = 0
    · left
      rw [none]
      exact Nat.zero_le _
    · have last := within (count - 1) (by omega)
      have back : 0 + (count - 1) + 1 = count := by omega
      simp only [Bool.and_eq_true, Bool.or_eq_true, decide_eq_true_eq, back] at last
      rcases last.2 with ⟨allowed, first⟩ | fits
      · by_cases empty : source.length = 0
        · left
          rw [List.eq_nil_of_length_eq_zero empty, List.take_nil]
          exact Nat.zero_le _
        · right
          exact ⟨allowed, by omega⟩
      · exact .inl fits
  · intro some allowed positive
    have taken := filled some (by
      simp only [Bool.and_eq_true, Bool.or_eq_true, decide_eq_true_eq]
      exact ⟨by omega, .inl ⟨allowed, trivial⟩⟩)
    have length := List.length_pos_iff.mpr some
    omega

-- The state after so many rows of a frame.
def foldedState (function : FoldFunction Row Value) (rows : List (FoldRow Row)) (count : Nat) : Option Value × Bool :=
  ((rows.take count).map FoldRow.value).foldl function.advance function.start

def accumulatorAt (function : FoldFunction Row Value) (outputOrdinal : Int) (rows : List (FoldRow Row)) (count : Nat) :
    Accumulator Value := ⟨outputOrdinal, (foldedState function rows count).1, (foldedState function rows count).2⟩

theorem accumulator_held (accumulator : Accumulator Value) (held : tables.accumulator = some accumulator) :
    accumulatorOf tables accumulator.outputOrdinal = some accumulator := by
  have same : decide (accumulator.outputOrdinal = accumulator.outputOrdinal) = true := decide_eq_true rfl
  rw [accumulatorOf, held, Option.filter_some, if_pos same]

theorem folded_further (rows : List (FoldRow Row)) (read count : Nat) :
    (((rows.drop read).take count).map FoldRow.value).foldl function.advance (foldedState function rows read) =
      foldedState function rows (read + count) := by
  rw [foldedState, foldedState, List.take_add, List.map_append, List.foldl_append]

-- A page of a fold takes the next rows of the frame.
theorem fold_page (outputOrdinal : Int) (frame : FrameRow) (read maxRows maxBytes : Nat) (allow : Bool)
    (isFrame : frameAt partition outputOrdinal = some frame) (ordered : Ordered frame.spans)
    (inside : read ≤ (frameRows partition frame).length)
    (held : tables.accumulator = some (accumulatorAt function outputOrdinal (frameRows partition frame) read))
    (rowBudget : maxRows < bigintMax) (byteBudget : maxBytes ≤ bigintMax) (positive : 0 < maxRows) :
    ∃ count, windowFoldPage function partition tables outputOrdinal (lastKey FoldRow.ordinal (frameRows partition frame) read)
          maxRows maxBytes allow =
        .ok (⟨count, foldBytes (((frameRows partition frame).drop read).take count),
            if count = 0 then none else lastKey FoldRow.ordinal (frameRows partition frame) (read + count),
            decide (read + count = (frameRows partition frame).length), if count = 0 then 0 else 1⟩,
          { tables with accumulator := some (accumulatorAt function outputOrdinal (frameRows partition frame) (read + count)) }) ∧
      read + count ≤ (frameRows partition frame).length ∧ count ≤ maxRows ∧
      (foldBytes (((frameRows partition frame).drop read).take count) ≤ maxBytes ∨ (allow = true ∧ count = 1)) ∧
      (read < (frameRows partition frame).length → allow = true → 0 < count) := by
  have source : foldSource partition frame (lastKey FoldRow.ordinal (frameRows partition frame) read) (maxRows + 1) =
      ((frameRows partition frame).drop read).take (maxRows + 1) := by
    rw [fold_source partition frame ordered, filter_behind _ (frame_rising partition frame) read inside]
  obtain ⟨count, selected, present, rows, bytes, filled⟩ := fold_selected allow maxRows maxBytes
    (((frameRows partition frame).drop read).take (maxRows + 1))
  have sourceLength : (((frameRows partition frame).drop read).take (maxRows + 1)).length =
      min (maxRows + 1) ((frameRows partition frame).length - read) := by rw [List.length_take, List.length_drop]
  rw [sourceLength] at present
  have short : (((frameRows partition frame).drop read).take (maxRows + 1)).take count =
      ((frameRows partition frame).drop read).take count := by
    rw [List.take_take, Nat.min_eq_left (by omega)]
  rw [short] at selected bytes
  have length : (((frameRows partition frame).drop read).take count).length = count := by
    rw [List.length_take, List.length_drop]
    omega
  have complete : decide ((((frameRows partition frame).drop read).take (maxRows + 1)).length =
      (((frameRows partition frame).drop read).take count).length) = decide (read + count = (frameRows partition frame).length) := by
    rw [sourceLength, length, decide_eq_decide]
    omega
  have last (taken : count ≠ 0) : (((frameRows partition frame).drop read).take count).getLast?.map FoldRow.ordinal =
      lastKey FoldRow.ordinal (frameRows partition frame) (read + count) := by
    rw [lastKey, if_neg (by omega), List.getLast?_eq_getElem?, length, List.getElem?_take_of_lt (by omega), List.getElem?_drop]
    congr 2
    omega
  have accumulator : accumulatorOf tables outputOrdinal =
      some (accumulatorAt function outputOrdinal (frameRows partition frame) read) := accumulator_held tables _ held
  refine ⟨count, ?_, by omega, rows, bytes, ?_⟩
  · rw [windowFoldPage, windowI64Budget, refuse_ok.mpr (decide_eq_false (by omega)), ok_bind,
      refuse_ok.mpr (decide_eq_false (by omega)), ok_bind, windowI64Budget, refuse_ok.mpr (decide_eq_false (by omega)),
      ok_bind, isFrame, accumulator]
    simp only
    rw [source, selected, complete, length]
    by_cases nothing : count = 0
    · have empty : ((frameRows partition frame).drop read).take count = [] := by rw [nothing, List.take_zero]
      have same : { tables with accumulator := some (accumulatorAt function outputOrdinal (frameRows partition frame) (read + count)) } =
          tables := by
        rw [nothing, Nat.add_zero, ← held]
      rw [if_pos nothing, if_pos nothing, same, empty]
      rfl
    · have some : ((frameRows partition frame).drop read).take count ≠ [] := by
        intro empty
        rw [empty] at length
        exact nothing length.symm
      have further := folded_further function (frameRows partition frame) read count
      rw [if_neg nothing, if_neg nothing, last nothing]
      have filled : (((frameRows partition frame).drop read).take count).isEmpty = false := by
        rw [List.isEmpty_eq_false_iff]
        exact some
      rw [filled]
      simp only [accumulatorAt, ← further]
      rfl
  · intro more allowed
    apply filled _ allowed positive
    intro empty
    have nothing := congrArg List.length empty
    rw [sourceLength, List.length_nil] at nothing
    omega

end Shiba.Window
