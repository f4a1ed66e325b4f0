import Shiba.Window.FrameBounds

set_option autoImplicit false

namespace Shiba.Window

open Shiba.Execution Spans

-- On which side of the excluded rows a row stands.
def aside (table : PeerTable) (exclusion : FrameExclusion) (current row : Int) : Nat :=
  match exclusion with
  | .nothing => 0
  | .currentRow => if row < current then 0 else 1
  | .group | .ties =>
      if table.peerId row < table.peerId current then 0 else if table.peerId row = table.peerId current then 1 else 2

-- The excluded rows go up to the last one.
def excludesLast (table : PeerTable) (current : Int) : FrameExclusion → Prop
  | .nothing => False
  | .currentRow => current = table.partitionRows
  | .group | .ties => table.peerId table.partitionRows = table.peerId current

-- What the pairs of raw bounds of a frame are.
structure Excluding (table : PeerTable) (exclusion : FrameExclusion) (start finish current : Int) (pairs : List Span) : Prop where
  few : pairs.length ≤ 3
  ordered : Ordered pairs
  within : ∀ span ∈ pairs, start ≤ span.first ∧ span.last ≤ finish
  kept : ∀ row : Int, 1 ≤ row → row ≤ table.partitionRows →
    (row ∈ rows pairs ↔ (start ≤ row ∧ row ≤ finish) ∧ excluded table current row exclusion = false)
  sides : ∃ side : Nat → Nat, (∀ earlier later, earlier < later → side earlier < side later) ∧
    ∀ index span row, pairs[index]? = some span → 1 ≤ row → row ≤ (table.partitionRows : Int) → span.first ≤ row → row ≤ span.last →
      aside table exclusion current row = side index

section Exclusion

variable (table : PeerTable) (ordinal : Int) (own : Peer) (start finish : Int)

theorem excluding_row : Excluding table .currentRow start finish ordinal
    [⟨start, min finish (ordinal - 1)⟩, ⟨max start (ordinal + 1), finish⟩] := by
  refine ⟨Nat.le_succ 2, ?_, ?_, ?_, id, fun _ _ less => less, ?_⟩
  · rw [Ordered, List.pairwise_pair]
    change min finish (ordinal - 1) < max start (ordinal + 1)
    omega
  · simp only [List.mem_cons, List.not_mem_nil, or_false, forall_eq_or_imp, forall_eq]
    omega
  · intro row _ _
    simp only [mem_rows, List.mem_cons, List.not_mem_nil, or_false, exists_eq_or_imp, exists_eq_left, excluded,
      decide_eq_false_iff_not]
    omega
  · intro index span row found above below first last
    rw [aside]
    rcases index with _ | _ | index
    · obtain rfl := Option.some.inj found
      change row ≤ min finish (ordinal - 1) at last
      rw [if_pos (by omega)]
      rfl
    · obtain rfl := Option.some.inj found
      change max start (ordinal + 1) ≤ row at first
      rw [if_neg (by omega)]
      rfl
    · cases found

variable (isOwn : table.lookup (table.peerId ordinal) = some own)

include isOwn

theorem excluding_group : Excluding table .group start finish ordinal
    [⟨start, min finish (own.firstOrdinal - 1)⟩, ⟨max start (own.lastOrdinal + 1), finish⟩] := by
  obtain ⟨_, filled, _, place⟩ := lookup_bounds table _ own isOwn
  refine ⟨Nat.le_succ 2, ?_, ?_, ?_, (2 * ·), ?_, ?_⟩
  · rw [Ordered, List.pairwise_pair]
    change min finish (own.firstOrdinal - 1) < max start (own.lastOrdinal + 1)
    omega
  · simp only [List.mem_cons, List.not_mem_nil, or_false, forall_eq_or_imp, forall_eq]
    omega
  · intro row above below
    obtain ⟨left, right⟩ := place row above below
    simp only [mem_rows, List.mem_cons, List.not_mem_nil, or_false, exists_eq_or_imp, exists_eq_left, excluded,
      decide_eq_false_iff_not]
    omega
  · intro earlier later less
    change 2 * earlier < 2 * later
    omega
  · intro index span row found above below first last
    obtain ⟨left, right⟩ := place row above below
    rw [aside]
    rcases index with _ | _ | index
    · obtain rfl := Option.some.inj found
      change row ≤ min finish (own.firstOrdinal - 1) at last
      rw [if_pos (by omega)]
    · obtain rfl := Option.some.inj found
      change max start (own.lastOrdinal + 1) ≤ row at first
      rw [if_neg (by omega), if_neg (by omega)]
    · cases found

variable (low : 1 ≤ ordinal) (high : ordinal ≤ table.partitionRows)

include low high

theorem excluding_ties : Excluding table .ties start finish ordinal
    [⟨start, min finish (own.firstOrdinal - 1)⟩, ⟨max start ordinal, min finish ordinal⟩,
      ⟨max start (own.lastOrdinal + 1), finish⟩] := by
  obtain ⟨_, filled, _, place⟩ := lookup_bounds table _ own isOwn
  obtain ⟨ownFirst, ownLast⟩ := place ordinal low high
  refine ⟨Nat.le_refl 3, ?_, ?_, ?_, id, fun _ _ less => less, ?_⟩
  · simp only [Ordered, List.pairwise_cons, List.mem_cons, List.not_mem_nil, or_false, forall_eq_or_imp, forall_eq,
      List.Pairwise.nil, and_true, false_imp_iff, implies_true]
    omega
  · simp only [List.mem_cons, List.not_mem_nil, or_false, forall_eq_or_imp, forall_eq]
    omega
  · intro row above below
    obtain ⟨left, right⟩ := place row above below
    simp only [mem_rows, List.mem_cons, List.not_mem_nil, or_false, exists_eq_or_imp, exists_eq_left, excluded,
      Bool.and_eq_false_iff, decide_eq_false_iff_not, not_not]
    omega
  · intro index span row found above below first last
    obtain ⟨left, right⟩ := place row above below
    rw [aside]
    rcases index with _ | _ | _ | index
    · obtain rfl := Option.some.inj found
      change row ≤ min finish (own.firstOrdinal - 1) at last
      rw [if_pos (by omega)]
      rfl
    · obtain rfl := Option.some.inj found
      change max start ordinal ≤ row at first
      change row ≤ min finish ordinal at last
      rw [if_neg (by omega), if_pos (by omega)]
      rfl
    · obtain rfl := Option.some.inj found
      change max start (own.lastOrdinal + 1) ≤ row at first
      rw [if_neg (by omega), if_neg (by omega)]
      rfl
    · cases found

-- The pairs of a frame, unless the excluded rows go up to the largest ordinal.
theorem frame_intervals (exclusion : FrameExclusion) :
    (∃ fault, frameIntervals exclusion start finish ordinal own = .error fault ∧ table.partitionRows = bigintMax ∧
      excludesLast table ordinal exclusion) ∨
    ∃ pairs, frameIntervals exclusion start finish ordinal own = .ok pairs ∧
      Excluding table exclusion start finish ordinal pairs ∧
      ¬ (table.partitionRows = bigintMax ∧ excludesLast table ordinal exclusion) := by
  have counted := table.counted
  obtain ⟨starts, filled, ends, place⟩ := lookup_bounds table _ own isOwn
  obtain ⟨left, right⟩ := place table.partitionRows (by omega) (Int.le_refl _)
  have lastPeer : table.peerId table.partitionRows = table.peerId ordinal ↔ own.lastOrdinal = table.partitionRows := by omega
  have before : bigint (own.firstOrdinal - 1) = .ok (own.firstOrdinal - 1) := bigint_ok _ (by omega) (by omega)
  have isPeer (raw : Int → List Span) (kind : FrameExclusion) (reads : frameIntervals kind start finish ordinal own =
        (bigint (own.firstOrdinal - 1) >>= fun _ => bigint (own.lastOrdinal + 1) >>= fun behind => .ok (raw behind)))
      (excluding : Excluding table kind start finish ordinal (raw (own.lastOrdinal + 1)))
      (last : excludesLast table ordinal kind ↔ table.peerId table.partitionRows = table.peerId ordinal) :
      (∃ fault, frameIntervals kind start finish ordinal own = .error fault ∧ table.partitionRows = bigintMax ∧
        excludesLast table ordinal kind) ∨
      ∃ pairs, frameIntervals kind start finish ordinal own = .ok pairs ∧
        Excluding table kind start finish ordinal pairs ∧
        ¬ (table.partitionRows = bigintMax ∧ excludesLast table ordinal kind) := by
    rw [last, lastPeer, reads, before, ok_bind]
    by_cases large : own.lastOrdinal = bigintMax
    · left
      refine ⟨.failed "bigint out of range", ?_, by omega, by omega⟩
      rw [bigint_over _ (by omega)]
      rfl
    · right
      refine ⟨raw (own.lastOrdinal + 1), ?_, excluding, by omega⟩
      rw [bigint_ok _ (by omega) (by omega)]
      rfl
  cases exclusion with
  | nothing =>
      right
      refine ⟨[⟨start, finish⟩], rfl, ⟨Nat.succ_le_succ (Nat.zero_le 2), List.pairwise_singleton _ _, ?_, ?_, id, fun _ _ less => less, ?_⟩, ?_⟩
      · intro span member
        rw [List.mem_singleton.mp member]
        exact ⟨Int.le_refl _, Int.le_refl _⟩
      · intro row _ _
        simp only [mem_rows, List.mem_singleton, exists_eq_left, excluded, and_true]
      · intro index span row found _ _ _ _
        rcases index with _ | index
        · rfl
        · cases found
      · rintro ⟨_, wrong⟩
        exact wrong
  | currentRow =>
      have isBefore : bigint (ordinal - 1) = .ok (ordinal - 1) := bigint_ok _ (by omega) (by omega)
      rw [frameIntervals, isBefore, ok_bind]
      by_cases large : ordinal = bigintMax
      · left
        refine ⟨.failed "bigint out of range", ?_, by omega, ?_⟩
        · rw [bigint_over _ (by omega)]
          rfl
        · change ordinal = table.partitionRows
          omega
      · right
        refine ⟨_, ?_, excluding_row table ordinal start finish, ?_⟩
        · rw [bigint_ok _ (by omega) (by omega)]
          rfl
        · rintro ⟨full, last⟩
          change ordinal = table.partitionRows at last
          omega
  | group =>
      exact isPeer (fun behind => [⟨start, min finish (own.firstOrdinal - 1)⟩, ⟨max start behind, finish⟩]) .group
        (by rw [frameIntervals, before]; rfl) (excluding_group table ordinal own start finish isOwn) Iff.rfl
  | ties =>
      exact isPeer (fun behind => [⟨start, min finish (own.firstOrdinal - 1)⟩, ⟨max start ordinal, min finish ordinal⟩,
        ⟨max start behind, finish⟩]) .ties
        (by rw [frameIntervals, before]; rfl) (excluding_ties table ordinal own start finish isOwn low high) Iff.rfl

end Exclusion

section Stored

def Sized (span : Option Span) : Prop := ∀ found, span = some found → 1 ≤ found.first ∧ found.first ≤ found.last ∧ found.last ≤ bigintMax

theorem span_count (span : Option Span) (sized : Sized span) : spanCount span = .ok ((rows span.toList).length : Int) := by
  cases span with
  | none => rfl
  | some span =>
      obtain ⟨low, filled, high⟩ := sized span rfl
      have length : (rows [span]).length = span.size := by
        rw [rows, List.flatMap_singleton]
        exact span_length span
      change spanCount (some span) = .ok ((rows [span]).length : Int)
      rw [spanCount, bigint_ok _ (by omega) (by omega), ok_bind, bigint_ok _ (by omega) (by omega), length, Span.size,
        Int.toNat_of_nonneg (by omega)]

theorem stored_spans (pairs : List Span) (few : pairs.length ≤ 3) :
    (pairs[0]?.bind Span.normal).toList ++ (pairs[1]?.bind Span.normal).toList ++ (pairs[2]?.bind Span.normal).toList =
      pairs.filterMap Span.normal := by
  rw [List.filterMap_eq_flatMap_toList]
  rcases pairs with _ | ⟨first, _ | ⟨second, _ | ⟨third, _ | ⟨more, rest⟩⟩⟩⟩
  · rfl
  · simp only [List.getElem?_cons_zero, List.getElem?_cons_succ, List.getElem?_nil, Option.bind_some, Option.bind_none,
      Option.toList_none, List.append_nil, List.flatMap_cons, List.flatMap_nil]
  · simp only [List.getElem?_cons_zero, List.getElem?_cons_succ, List.getElem?_nil, Option.bind_some, Option.bind_none,
      Option.toList_none, List.append_nil, List.flatMap_cons, List.flatMap_nil]
  · simp only [List.getElem?_cons_zero, List.getElem?_cons_succ, Option.bind_some, List.append_nil, List.flatMap_cons,
      List.flatMap_nil, List.append_assoc]
  · simp only [List.length_cons] at few
    omega

theorem frame_rows (row : FrameRow) : rows row.spans = rows row.one.toList ++ rows row.two.toList ++ rows row.three.toList := by
  rw [FrameRow.spans, rows, List.flatMap_append, List.flatMap_append]
  rfl

theorem first_target (row : FrameRow) (one : Sized row.one) (two : Sized row.two) (three : Sized row.three) :
    row.firstTarget = (rows row.spans).head? := by
  have head (span : Option Span) (sized : Sized span) : (rows span.toList).head? = span.map Span.first := by
    cases span with
    | none => rfl
    | some span =>
        obtain ⟨_, filled, _⟩ := sized span rfl
        rw [Option.toList_some, rows, List.flatMap_singleton, List.head?_eq_getElem?, span_get, if_pos (by rw [Span.size]; omega)]
        simp only [Nat.cast_zero, Int.add_zero, Option.map_some]
  rw [frame_rows, List.head?_append, List.head?_append, head _ one, head _ two, head _ three]
  rfl

theorem last_target (row : FrameRow) (one : Sized row.one) (two : Sized row.two) (three : Sized row.three) :
    row.lastTarget = (rows row.spans).getLast? := by
  have last (span : Option Span) (sized : Sized span) : (rows span.toList).getLast? = span.map Span.last := by
    cases span with
    | none => rfl
    | some span =>
        obtain ⟨_, filled, _⟩ := sized span rfl
        rw [Option.toList_some, rows, List.flatMap_singleton, List.getLast?_eq_getElem?, span_length, span_get,
          if_pos (by rw [Span.size]; omega), Option.map_some, Span.size]
        congr 1
        omega
  rw [frame_rows, List.getLast?_append, List.getLast?_append, last _ one, last _ two, last _ three, FrameRow.lastTarget,
    Option.or_assoc]

variable (row : FrameRow) (one : Sized row.one) (two : Sized row.two) (three : Sized row.three)
  (counted : row.frameCount = ((rows row.spans).length : Int)) (total : (rows row.spans).length ≤ bigintMax) (place : Int → Nat) (side : Nat → Nat)
  (rising : ∀ earlier later, earlier < later → side earlier < side later)
  (inOne : ∀ ordinal ∈ rows row.one.toList, place ordinal = side 0) (inTwo : ∀ ordinal ∈ rows row.two.toList, place ordinal = side 1)
  (inThree : ∀ ordinal ∈ rows row.three.toList, place ordinal = side 2)

-- The rows that lie on an earlier side than the given one.
def earlierSide (ordinals : List Int) (place : Int → Nat) (ordinal : Int) : Nat :=
  (ordinals.filter fun other => decide (place other < place ordinal)).length

include rising inOne inTwo inThree

theorem earlier_side (index : Nat) (ordinal : Int) (here : place ordinal = side index) (few : index < 3) :
    earlierSide (rows row.spans) place ordinal =
      (if 0 < index then (rows row.one.toList).length else 0) + if 1 < index then (rows row.two.toList).length else 0 := by
  have part (ordinals : List Int) (at_ : Nat) (all : ∀ other ∈ ordinals, place other = side at_) :
      (ordinals.filter fun other => decide (place other < place ordinal)).length = if at_ < index then ordinals.length else 0 := by
    by_cases before : at_ < index
    · rw [if_pos before, List.filter_eq_self.mpr]
      intro other member
      rw [decide_eq_true_eq, all other member, here]
      exact rising at_ index before
    · rw [if_neg before, List.filter_eq_nil_iff.mpr]
      · rfl
      · intro other member
        rw [decide_eq_true_eq, all other member, here]
        intro less
        rcases Nat.lt_or_eq_of_le (Nat.le_of_not_lt before) with later | same
        · exact absurd (rising index at_ later) (Nat.lt_asymm less)
        · rw [same] at less
          exact Nat.lt_irrefl _ less
  rw [earlierSide, frame_rows, List.filter_append, List.filter_append, List.length_append, List.length_append,
    part _ 0 inOne, part _ 1 inTwo, part _ 2 inThree, if_neg (show ¬ 2 < index by omega), Nat.add_zero]

omit rising inOne inTwo inThree in
theorem span_rows_get (span : Option Span) (index : Nat) (inside : index < (rows span.toList).length) :
    ∃ found, span = some found ∧ (rows span.toList)[index]? = some (found.first + index) := by
  cases span with
  | none => exact absurd inside (Nat.not_lt_zero _)
  | some found =>
      refine ⟨found, rfl, ?_⟩
      rw [Option.toList_some, rows, List.flatMap_singleton] at inside ⊢
      rw [span_length] at inside
      rw [span_get, if_pos inside]

include one two three counted total

-- nth_value's ordinal, unless the sum that is formed for it is no bigint.
theorem nth_target (nth : Nat) (positive : 0 < nth) :
    (row.nthTarget (some (nth : Int)) = .ok (rows row.spans)[nth - 1]? ∧
      ∀ ordinal, (rows row.spans)[nth - 1]? = some ordinal → ordinal + 1 + earlierSide (rows row.spans) place ordinal ≤ bigintMax) ∨
    ∃ fault ordinal, row.nthTarget (some (nth : Int)) = .error fault ∧ (rows row.spans)[nth - 1]? = some ordinal ∧
      bigintMax < ordinal + 1 + earlierSide (rows row.spans) place ordinal := by
  have sides := earlier_side row place side rising inOne inTwo inThree
  have all : (rows row.spans).length = (rows row.one.toList).length + (rows row.two.toList).length + (rows row.three.toList).length := by
    rw [frame_rows, List.length_append, List.length_append]
  have member (span : Option Span) (index : Nat) (ordinal : Int) (found : (rows span.toList)[index]? = some ordinal) :
      ordinal ∈ rows span.toList := List.mem_of_getElem? found
  rw [FrameRow.nthTarget, if_neg (by omega), span_count _ one, ok_bind]
  generalize isFirst : (rows row.one.toList).length = first at sides all ⊢
  by_cases inFirst : nth ≤ first
  · rw [if_pos (by omega)]
    obtain ⟨span, isSpan, found⟩ := span_rows_get row.one (nth - 1) (by omega)
    obtain ⟨low, filled, high⟩ := one span isSpan
    have target : (rows row.spans)[nth - 1]? = some (span.first + (nth - 1 : Nat)) := by
      rw [frame_rows, List.append_assoc, List.getElem?_append_left (by omega)]
      exact found
    have before : earlierSide (rows row.spans) place (span.first + (nth - 1 : Nat)) = 0 :=
      sides 0 _ (inOne _ (member _ _ _ found)) (by omega)
    rw [isSpan, target]
    simp only
    by_cases fits : span.first + nth ≤ bigintMax
    · left
      refine ⟨?_, ?_⟩
      · rw [bigint_ok _ (by omega) fits, ok_bind, bigint_ok _ (by omega) (by omega), ok_bind]
        congr 2
        omega
      · intro ordinal same
        obtain rfl := Option.some.inj same
        omega
    · right
      refine ⟨.failed "bigint out of range", _, ?_, rfl, ?_⟩
      · rw [bigint_over _ (by omega)]
        rfl
      · omega
  · rw [if_neg (by omega), span_count _ two, ok_bind]
    generalize isSecond : (rows row.two.toList).length = second at sides all ⊢
    rw [bigint_ok _ (by omega) (by omega), ok_bind]
    by_cases inSecond : nth ≤ first + second
    · rw [if_pos (by omega)]
      obtain ⟨span, isSpan, found⟩ := span_rows_get row.two (nth - 1 - first) (by omega)
      obtain ⟨low, filled, high⟩ := two span isSpan
      have target : (rows row.spans)[nth - 1]? = some (span.first + (nth - 1 - first : Nat)) := by
        rw [frame_rows, List.append_assoc, List.getElem?_append_right (by omega), isFirst, List.getElem?_append_left (by omega)]
        exact found
      have before : earlierSide (rows row.spans) place (span.first + (nth - 1 - first : Nat)) = first :=
        sides 1 _ (inTwo _ (member _ _ _ found)) (by omega)
      rw [isSpan, target]
      simp only
      by_cases fits : span.first + nth ≤ bigintMax
      · left
        refine ⟨?_, ?_⟩
        · rw [bigint_ok _ (by omega) fits, ok_bind, bigint_ok _ (by omega) (by omega), ok_bind, bigint_ok _ (by omega) (by omega), ok_bind]
          congr 2
          omega
        · intro ordinal same
          obtain rfl := Option.some.inj same
          omega
      · right
        refine ⟨.failed "bigint out of range", _, ?_, rfl, ?_⟩
        · rw [bigint_over _ (by omega)]
          rfl
        · omega
    · rw [if_neg (by omega), counted, all]
      by_cases inThird : nth ≤ (rows row.spans).length
      · rw [if_pos (by omega)]
        obtain ⟨span, isSpan, found⟩ := span_rows_get row.three (nth - 1 - first - second) (by omega)
        obtain ⟨low, filled, high⟩ := three span isSpan
        have target : (rows row.spans)[nth - 1]? = some (span.first + (nth - 1 - first - second : Nat)) := by
          rw [frame_rows, List.append_assoc, List.getElem?_append_right (by omega), isFirst, List.getElem?_append_right (by omega),
            isSecond]
          exact found
        have before : earlierSide (rows row.spans) place (span.first + (nth - 1 - first - second : Nat)) = first + second :=
          sides 2 _ (inThree _ (member _ _ _ found)) (by omega)
        rw [isSpan, target]
        simp only
        by_cases fits : span.first + nth ≤ bigintMax
        · left
          refine ⟨?_, ?_⟩
          · rw [bigint_ok _ (by omega) fits, ok_bind, bigint_ok _ (by omega) (by omega), ok_bind, bigint_ok _ (by omega) (by omega), ok_bind,
              bigint_ok _ (by omega) (by omega), ok_bind]
            congr 2
            omega
          · intro ordinal same
            obtain rfl := Option.some.inj same
            omega
        · right
          refine ⟨.failed "bigint out of range", _, ?_, rfl, ?_⟩
          · rw [bigint_over _ (by omega)]
            rfl
          · omega
      · left
        have nothing : (rows row.spans)[nth - 1]? = none := List.getElem?_eq_none (by omega)
        rw [if_neg (by omega), nothing]
        refine ⟨rfl, ?_⟩
        intro ordinal wrong
        cases wrong

end Stored

end Shiba.Window
