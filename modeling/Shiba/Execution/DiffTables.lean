import Shiba.Execution.Diff

set_option autoImplicit false

namespace Shiba.Execution

open Weighted
open Shiba.TopN (DiffLeg)

section

variable {Key Row : Type} [DecidableEq Key] (canonical : Row → Key)

-- The constraints of a table: rising identities, unique keys, positive copies,
-- and keys that belong to their rows.
structure WellKeyed (rows : List (DiffRow Key Row)) : Prop where
  rising : rows.Pairwise fun earlier later => earlier.rowId < later.rowId
  positive : ∀ row ∈ rows, 0 < row.rowId
  distinct : rows.Pairwise fun earlier later => earlier.outputKey ≠ later.outputKey
  present : ∀ row ∈ rows, 0 < row.multiplicity
  imaged : ∀ row ∈ rows, row.outputKey = canonical row.outputRow

structure DiffTables.Valid (tables : DiffTables Key Row) : Prop where
  visible : WellKeyed canonical tables.visible
  candidate : WellKeyed canonical tables.candidate
  fresh : ∀ row ∈ tables.visible, row.rowId < tables.nextVisibleId
  started : 0 < tables.nextVisibleId

omit [DecidableEq Key] in
theorem DiffTables.Valid.iterated {canonical : Row → Key} {tables : DiffTables Key Row} (valid : tables.Valid canonical)
    (leg : DiffLeg) : WellKeyed canonical (tables.iterated leg) := by
  cases leg with
  | remove => exact valid.visible
  | add => exact valid.candidate

section

variable (differences : List (DiffRow Key Row × Nat)) (rows : List (DiffRow Key Row)) (key : Key)

omit [DecidableEq Key] in
theorem same_by_id (rising : rows.Pairwise fun earlier later => earlier.rowId < later.rowId) (one other : DiffRow Key Row)
    (member : one ∈ rows) (otherMember : other ∈ rows) (same : one.rowId = other.rowId) :
    one = other := by
  induction rows with
  | nil => cases member
  | cons head tail ih =>
      obtain ⟨before, inside⟩ := List.pairwise_cons.mp rising
      rcases List.mem_cons.mp member with rfl | later <;> rcases List.mem_cons.mp otherMember with rfl | otherLater
      · rfl
      · have less := before other otherLater
        omega
      · have less := before one later
        omega
      · exact ih inside later otherLater

omit [DecidableEq Key] in
theorem same_by_key (distinct : rows.Pairwise fun earlier later => earlier.outputKey ≠ later.outputKey)
    (one other : DiffRow Key Row) (member : one ∈ rows) (otherMember : other ∈ rows) (same : one.outputKey = other.outputKey) :
    one = other := by
  induction rows with
  | nil => cases member
  | cons head tail ih =>
      obtain ⟨before, inside⟩ := List.pairwise_cons.mp distinct
      rcases List.mem_cons.mp member with rfl | later <;> rcases List.mem_cons.mp otherMember with rfl | otherLater
      · rfl
      · exact absurd same (before other otherLater)
      · exact absurd same.symm (before one later)
      · exact ih inside later otherLater

theorem copies_member {rows : List (DiffRow Key Row)}
    (distinct : rows.Pairwise fun earlier later => earlier.outputKey ≠ later.outputKey) {row : DiffRow Key Row} (member : row ∈ rows) :
    copiesOf rows row.outputKey = row.multiplicity := by
  unfold copiesOf
  cases found : rows.find? fun other => decide (other.outputKey = row.outputKey) with
  | none =>
      have wrong := List.find?_eq_none.mp found row member
      exact absurd (decide_eq_true rfl) wrong
  | some other =>
      have same := same_by_key rows distinct other row (List.mem_of_find?_eq_some found) member
        (of_decide_eq_true (List.find?_some (p := fun other : DiffRow Key Row => decide (other.outputKey = row.outputKey)) found))
      rw [same]
      rfl

theorem copies_absent (absent : ∀ row ∈ rows, row.outputKey ≠ key) :
    copiesOf rows key = 0 := by
  unfold copiesOf
  have nothing : rows.find? (fun row => decide (row.outputKey = key)) = none := by
    rw [List.find?_eq_none]
    intro row member
    rw [decide_eq_true_eq]
    exact absent row member
  rw [nothing]
  rfl

-- A key is that of one row, or of none.
theorem key_cases :
    (∃ row ∈ rows, row.outputKey = key) ∨ ∀ row ∈ rows, row.outputKey ≠ key := by
  by_cases found : ∃ row ∈ rows, row.outputKey = key
  · exact .inl found
  · right
    intro row member same
    exact found ⟨row, member, same⟩

-- The slices of a page by their keys.
def keyed (differences : List (DiffRow Key Row × Nat)) : List (Key × Int) :=
  differences.map fun difference => (difference.1.outputKey, (difference.2 : Int))

theorem keyed_member (distinct : differences.Pairwise fun earlier later => earlier.1.outputKey ≠ later.1.outputKey)
    {difference : DiffRow Key Row × Nat} (member : difference ∈ differences) :
    weight (keyed differences) difference.1.outputKey = difference.2 := by
  induction differences with
  | nil => cases member
  | cons head tail ih =>
      obtain ⟨before, inside⟩ := List.pairwise_cons.mp distinct
      rw [keyed, List.map_cons, weight_cons]
      rcases List.mem_cons.mp member with rfl | later
      · have rest : weight (keyed tail) difference.1.outputKey = 0 := by
          apply Weighted.sum_of_none
          intro entry found
          obtain ⟨other, otherMember, rfl⟩ := List.mem_map.mp found
          simp only [Ne.symm (before other otherMember), decide_false, Bool.false_eq_true, if_false]
        change _ + weight (keyed tail) _ = _
        rw [rest, if_pos rfl, Int.add_zero]
      · change _ + weight (keyed tail) _ = _
        rw [if_neg (before difference later), Int.zero_add]
        exact ih inside later

theorem keyed_absent (absent : ∀ difference ∈ differences, difference.1.outputKey ≠ key) :
    weight (keyed differences) key = 0 := by
  apply Weighted.sum_of_none
  intro entry found
  obtain ⟨difference, member, rfl⟩ := List.mem_map.mp found
  simp only [absent difference member, decide_false, Bool.false_eq_true, if_false]

end

-- What a page asks of its leg: slices of rows of the iterated table, at most
-- their differences.
structure Sliced (leg : DiffLeg) (tables : DiffTables Key Row) (differences : List (DiffRow Key Row × Nat)) : Prop where
  member : ∀ difference ∈ differences, difference.1 ∈ tables.iterated leg
  rising : differences.Pairwise fun earlier later => earlier.1.rowId < later.1.rowId
  positive : ∀ difference ∈ differences, 0 < difference.2
  within : ∀ difference ∈ differences, (difference.2 : Int) ≤ tables.delta leg difference.1

variable {canonical} {tables : DiffTables Key Row} (valid : tables.Valid canonical) {leg : DiffLeg}
  {differences : List (DiffRow Key Row × Nat)} (sliced : Sliced leg tables differences)

include valid sliced

theorem slices_distinct : differences.Pairwise fun earlier later => earlier.1.outputKey ≠ later.1.outputKey := by
  apply sliced.rising.imp_of_mem
  intro earlier later inside laterInside less same
  have equal := same_by_key _ (valid.iterated leg).distinct _ _ (sliced.member _ inside) (sliced.member _ laterInside) same
  rw [equal] at less
  omega

-- The slice of a row is the one under its key.
theorem difference_none (row : DiffRow Key Row) (member : row ∈ tables.iterated leg) (nothing : differenceOf differences row = none) :
    weight (keyed differences) row.outputKey = 0 := by
  apply keyed_absent
  intro difference inside same
  have equal := same_by_key _ (valid.iterated leg).distinct _ _ (sliced.member _ inside) member same
  have wrong := List.find?_eq_none.mp (Option.map_eq_none_iff.mp nothing) difference inside
  rw [equal, decide_eq_true_eq] at wrong
  exact wrong rfl

theorem difference_some {row : DiffRow Key Row} (member : row ∈ tables.iterated leg) {slice : Nat}
    (found : differenceOf differences row = some slice) :
    (row, slice) ∈ differences ∧ weight (keyed differences) row.outputKey = slice := by
  obtain ⟨difference, first, rfl⟩ := Option.map_eq_some_iff.mp found
  have inside := List.mem_of_find?_eq_some first
  have hit := List.find?_some first
  have same := same_by_id _ (valid.iterated leg).rising _ _ (sliced.member _ inside) member (of_decide_eq_true hit)
  rw [← same]
  exact ⟨inside, keyed_member differences (slices_distinct valid sliced) inside⟩

omit valid sliced in
omit [DecidableEq Key] in
theorem kept_shape {row after : DiffRow Key Row} (kept : withoutSlice differences row = some after) :
    after.rowId = row.rowId ∧ after.outputKey = row.outputKey ∧ after.outputRow = row.outputRow := by
  unfold withoutSlice at kept
  cases found : differenceOf differences row with
  | none =>
      rw [found] at kept
      obtain rfl := Option.some.inj kept
      exact ⟨rfl, rfl, rfl⟩
  | some slice =>
      rw [found] at kept
      simp only at kept
      split at kept
      · cases kept
      · split at kept
        · obtain rfl := Option.some.inj kept
          exact ⟨rfl, rfl, rfl⟩
        · obtain rfl := Option.some.inj kept
          exact ⟨rfl, rfl, rfl⟩

omit valid sliced in
theorem delta_le (tables : DiffTables Key Row) (leg : DiffLeg) (row : DiffRow Key Row) : tables.delta leg row ≤ row.multiplicity := by
  unfold DiffTables.delta
  omega

section Remove

variable {differences : List (DiffRow Key Row × Nat)} (taken : Sliced .remove tables differences)

omit sliced

include taken

-- A row keeps what its slice leaves, and goes where that is nothing.
theorem kept_copies (row : DiffRow Key Row) (member : row ∈ tables.visible) :
    (withoutSlice differences row = none → (row.multiplicity : Int) = weight (keyed differences) row.outputKey) ∧
      ∀ after, withoutSlice differences row = some after →
        (after.multiplicity : Int) = row.multiplicity - weight (keyed differences) row.outputKey ∧ 0 < after.multiplicity := by
  unfold withoutSlice
  cases found : differenceOf differences row with
  | none =>
      refine ⟨fun wrong => (by cases wrong), ?_⟩
      intro after same
      obtain rfl := Option.some.inj same
      have nothing := difference_none valid taken row member found
      have present := valid.visible.present row member
      omega
  | some slice =>
      obtain ⟨inside, isSlice⟩ := difference_some valid taken member found
      have within := taken.within (row, slice) inside
      have below := delta_le tables .remove row
      simp only at within ⊢
      by_cases whole : row.multiplicity = slice
      · rw [if_pos whole]
        refine ⟨fun _ => by omega, ?_⟩
        intro after wrong
        cases wrong
      · have less : slice < row.multiplicity := by omega
        rw [if_neg whole, if_pos less]
        refine ⟨fun wrong => (by cases wrong), ?_⟩
        intro after same
        obtain rfl := Option.some.inj same
        simp only
        omega

theorem removed_valid : WellKeyed canonical (tables.visible.filterMap (withoutSlice differences)) := by
  refine ⟨?_, ?_, ?_, ?_, ?_⟩
  · apply List.Pairwise.filterMap _ _ valid.visible.rising
    intro earlier later less one isOne other isOther
    rw [(kept_shape isOne).1, (kept_shape isOther).1]
    exact less
  · intro after inside
    obtain ⟨row, member, kept⟩ := List.mem_filterMap.mp inside
    rw [(kept_shape kept).1]
    exact valid.visible.positive row member
  · apply List.Pairwise.filterMap _ _ valid.visible.distinct
    intro earlier later apart one isOne other isOther
    rw [(kept_shape isOne).2.1, (kept_shape isOther).2.1]
    exact apart
  · intro after inside
    obtain ⟨row, member, kept⟩ := List.mem_filterMap.mp inside
    exact ((kept_copies valid taken row member).2 after kept).2
  · intro after inside
    obtain ⟨row, member, kept⟩ := List.mem_filterMap.mp inside
    obtain ⟨_, key, image⟩ := kept_shape kept
    rw [key, image]
    exact valid.visible.imaged row member

theorem removed_copies (key : Key) : (copiesOf (tables.visible.filterMap (withoutSlice differences)) key : Int) =
    copiesOf tables.visible key - weight (keyed differences) key := by
  rcases key_cases tables.visible key with ⟨row, member, rfl⟩ | absent
  · rw [copies_member valid.visible.distinct member]
    obtain ⟨gone, stays⟩ := kept_copies valid taken row member
    cases kept : withoutSlice differences row with
    | none =>
        rw [copies_absent]
        · have all := gone kept
          omega
        · intro after inside same
          obtain ⟨other, otherMember, otherKept⟩ := List.mem_filterMap.mp inside
          rw [(kept_shape otherKept).2.1] at same
          have equal := same_by_key _ valid.visible.distinct other row otherMember member same
          rw [equal, kept] at otherKept
          cases otherKept
    | some after =>
        have inside : after ∈ tables.visible.filterMap (withoutSlice differences) := List.mem_filterMap.mpr ⟨row, member, kept⟩
        rw [← (kept_shape kept).2.1, copies_member (removed_valid valid taken).distinct inside, (kept_shape kept).2.1]
        exact (stays after kept).1
  · rw [copies_absent tables.visible key absent, copies_absent, keyed_absent]
    · omega
    · intro difference inside
      exact absent _ (taken.member difference inside)
    · intro after inside same
      obtain ⟨row, member, kept⟩ := List.mem_filterMap.mp inside
      rw [(kept_shape kept).2.1] at same
      exact absent row member same

-- Every slice changes its row or deletes it.
theorem removed_count :
    (tables.visible.filter fun row => (differenceOf differences row).any fun slice => decide (slice ≤ row.multiplicity)).length =
      differences.length := by
  have apart : (differences.map Prod.fst).Nodup := by
    rw [List.Nodup, List.pairwise_map]
    apply taken.rising.imp
    intro earlier later less same
    rw [same] at less
    omega
  have visibleApart : tables.visible.Nodup := by
    apply valid.visible.rising.imp
    intro earlier later less same
    rw [same] at less
    omega
  have length : (differences.map Prod.fst).length = differences.length := List.length_map _
  rw [← length]
  apply List.Perm.length_eq
  rw [List.perm_ext_iff_of_nodup (visibleApart.filter _) apart]
  intro row
  rw [List.mem_filter, List.mem_map]
  constructor
  · intro chosen
    obtain ⟨member, hit⟩ := chosen
    cases found : differenceOf differences row with
    | none =>
        rw [found] at hit
        cases hit
    | some slice => exact ⟨_, (difference_some valid taken member found).1, rfl⟩
  · intro found
    obtain ⟨difference, inside, rfl⟩ := found
    have member : difference.1 ∈ tables.visible := taken.member difference inside
    refine ⟨member, ?_⟩
    cases isSlice : differenceOf differences difference.1 with
    | none =>
        have nothing := difference_none valid taken difference.1 member isSlice
        have some := keyed_member differences (slices_distinct valid taken) inside
        have positive := taken.positive difference inside
        omega
    | some slice =>
        obtain ⟨pair, _⟩ := difference_some valid taken member isSlice
        have within := taken.within _ pair
        have below := delta_le tables .remove difference.1
        simp only at within
        exact decide_eq_true (by omega)

end Remove

end

section Add

variable {Key Row : Type} [DecidableEq Key] {canonical : Row → Key}

theorem any_key (rows : List (DiffRow Key Row)) (key : Key) :
    (rows.any fun stored => decide (stored.outputKey = key)) = true ↔ ∃ row ∈ rows, row.outputKey = key := by
  rw [List.any_eq_true]
  simp only [decide_eq_true_eq]

theorem insert_candidate (tables : DiffTables Key Row) (difference : DiffRow Key Row × Nat) :
    (insertSlice tables difference).candidate = tables.candidate := by
  unfold insertSlice
  simp only
  split <;> rfl

-- The row of a key after a slice of it came in.
def withSlice (difference : DiffRow Key Row × Nat) (stored : DiffRow Key Row) : DiffRow Key Row :=
  if stored.outputKey = difference.1.outputKey then
    { stored with outputRow := difference.1.outputRow, multiplicity := stored.multiplicity + difference.2 }
  else stored

theorem with_slice_shape (difference : DiffRow Key Row × Nat) (stored : DiffRow Key Row) :
    (withSlice difference stored).rowId = stored.rowId ∧ (withSlice difference stored).outputKey = stored.outputKey ∧
      (withSlice difference stored).multiplicity =
        stored.multiplicity + (if difference.1.outputKey = stored.outputKey then difference.2 else 0) := by
  unfold withSlice
  by_cases same : stored.outputKey = difference.1.outputKey
  · rw [if_pos same, if_pos same.symm]
    exact ⟨rfl, rfl, rfl⟩
  · rw [if_neg same, if_neg (Ne.symm same)]
    exact ⟨rfl, rfl, rfl⟩

variable {tables : DiffTables Key Row} (valid : tables.Valid canonical) {difference : DiffRow Key Row × Nat}

theorem insert_known (known : ∃ row ∈ tables.visible, row.outputKey = difference.1.outputKey) :
    insertSlice tables difference =
      { tables with
        visible := tables.visible.map (withSlice difference)
        nextVisibleId := tables.nextVisibleId + 1 } := by
  unfold insertSlice
  simp only
  rw [if_pos ((any_key _ _).mpr known)]
  rfl

theorem insert_new (absent : ∀ row ∈ tables.visible, row.outputKey ≠ difference.1.outputKey) :
    insertSlice tables difference =
      { tables with
        visible := tables.visible ++ [⟨tables.nextVisibleId, difference.1.outputKey, difference.1.outputRow, difference.2⟩]
        nextVisibleId := tables.nextVisibleId + 1 } := by
  unfold insertSlice
  simp only
  rw [if_neg]
  rw [any_key]
  intro found
  obtain ⟨row, member, same⟩ := found
  exact absent row member same

include valid

theorem insert_valid (positive : 0 < difference.2) (imaged : difference.1.outputKey = canonical difference.1.outputRow) :
    (insertSlice tables difference).Valid canonical := by
  have started := valid.started
  rcases key_cases tables.visible difference.1.outputKey with known | absent
  · rw [insert_known known]
    refine ⟨⟨?_, ?_, ?_, ?_, ?_⟩, valid.candidate, ?_, Int.lt_trans started (Int.lt_succ _)⟩
    · rw [List.pairwise_map]
      apply valid.visible.rising.imp
      intro earlier later less
      rw [(with_slice_shape difference earlier).1, (with_slice_shape difference later).1]
      exact less
    · intro after inside
      obtain ⟨row, member, rfl⟩ := List.mem_map.mp inside
      rw [(with_slice_shape difference row).1]
      exact valid.visible.positive row member
    · rw [List.pairwise_map]
      apply valid.visible.distinct.imp
      intro earlier later apart
      rw [(with_slice_shape difference earlier).2.1, (with_slice_shape difference later).2.1]
      exact apart
    · intro after inside
      obtain ⟨row, member, rfl⟩ := List.mem_map.mp inside
      rw [(with_slice_shape difference row).2.2]
      exact Nat.add_pos_left (valid.visible.present row member) _
    · intro after inside
      obtain ⟨row, member, rfl⟩ := List.mem_map.mp inside
      unfold withSlice
      by_cases same : row.outputKey = difference.1.outputKey
      · rw [if_pos same]
        exact same.trans imaged
      · rw [if_neg same]
        exact valid.visible.imaged row member
    · intro after inside
      obtain ⟨row, member, rfl⟩ := List.mem_map.mp inside
      rw [(with_slice_shape difference row).1]
      exact Int.lt_trans (valid.fresh row member) (Int.lt_succ _)
  · rw [insert_new absent]
    refine ⟨⟨?_, ?_, ?_, ?_, ?_⟩, valid.candidate, ?_, Int.lt_trans started (Int.lt_succ _)⟩
    · rw [List.pairwise_append]
      refine ⟨valid.visible.rising, List.pairwise_singleton _ _, ?_⟩
      intro row member last isLast
      rw [List.mem_singleton.mp isLast]
      exact valid.fresh row member
    · intro row inside
      rcases List.mem_append.mp inside with old | new
      · exact valid.visible.positive row old
      · rw [List.mem_singleton.mp new]
        exact started
    · rw [List.pairwise_append]
      refine ⟨valid.visible.distinct, List.pairwise_singleton _ _, ?_⟩
      intro row member last isLast
      rw [List.mem_singleton.mp isLast]
      exact absent row member
    · intro row inside
      rcases List.mem_append.mp inside with old | new
      · exact valid.visible.present row old
      · rw [List.mem_singleton.mp new]
        exact positive
    · intro row inside
      rcases List.mem_append.mp inside with old | new
      · exact valid.visible.imaged row old
      · rw [List.mem_singleton.mp new]
        exact imaged
    · intro row inside
      rcases List.mem_append.mp inside with old | new
      · exact Int.lt_trans (valid.fresh row old) (Int.lt_succ _)
      · rw [List.mem_singleton.mp new]
        exact Int.lt_succ _

theorem insert_copies (after : (insertSlice tables difference).Valid canonical) (key : Key) :
    copiesOf (insertSlice tables difference).visible key =
      copiesOf tables.visible key + (if difference.1.outputKey = key then difference.2 else 0) := by
  rcases key_cases tables.visible difference.1.outputKey with known | absent
  · have distinct := after.visible.distinct
    rw [insert_known known] at distinct ⊢
    rcases key_cases tables.visible key with ⟨row, member, rfl⟩ | missing
    · obtain ⟨_, sameKey, copies⟩ := with_slice_shape difference row
      have inside : withSlice difference row ∈ tables.visible.map (withSlice difference) := List.mem_map_of_mem member
      rw [copies_member valid.visible.distinct member, ← copies, ← copies_member distinct inside, sameKey]
    · rw [copies_absent tables.visible key missing, copies_absent, if_neg]
      · obtain ⟨row, member, same⟩ := known
        rw [← same]
        exact missing row member
      · intro stored inside
        obtain ⟨row, member, rfl⟩ := List.mem_map.mp inside
        rw [(with_slice_shape difference row).2.1]
        exact missing row member
  · have distinct := after.visible.distinct
    rw [insert_new absent] at distinct ⊢
    rcases key_cases tables.visible key with ⟨row, member, rfl⟩ | missing
    · rw [copies_member valid.visible.distinct member, copies_member distinct (List.mem_append_left _ member),
        if_neg (Ne.symm (absent row member)), Nat.add_zero]
    · rw [copies_absent tables.visible key missing, Nat.zero_add]
      by_cases same : difference.1.outputKey = key
      · rw [if_pos same]
        have inside := List.mem_append_right tables.visible (List.mem_singleton_self
          (⟨tables.nextVisibleId, difference.1.outputKey, difference.1.outputRow, difference.2⟩ : DiffRow Key Row))
        have found := copies_member distinct inside
        rw [← same]
        exact found
      · rw [if_neg same]
        apply copies_absent
        intro stored inside
        rcases List.mem_append.mp inside with old | new
        · exact missing stored old
        · rw [List.mem_singleton.mp new]
          exact same

end Add

section

variable {Key Row : Type} [DecidableEq Key] {canonical : Row → Key}

theorem keyed_cons (difference : DiffRow Key Row × Nat) (rest : List (DiffRow Key Row × Nat)) (key : Key) :
    weight (keyed (difference :: rest)) key =
      ((if difference.1.outputKey = key then difference.2 else 0 : Nat) : Int) + weight (keyed rest) key := by
  rw [keyed, List.map_cons, weight_cons]
  change (if difference.1.outputKey = key then (difference.2 : Int) else 0) + weight (keyed rest) key = _
  split <;> rfl

-- All slices of a page come in one by one.
theorem inserted (differences : List (DiffRow Key Row × Nat)) (tables : DiffTables Key Row) (valid : tables.Valid canonical)
    (positive : ∀ difference ∈ differences, 0 < difference.2)
    (imaged : ∀ difference ∈ differences, difference.1.outputKey = canonical difference.1.outputRow) :
    (differences.foldl insertSlice tables).Valid canonical ∧
      (differences.foldl insertSlice tables).candidate = tables.candidate ∧
      ∀ key, (copiesOf (differences.foldl insertSlice tables).visible key : Int) =
        copiesOf tables.visible key + weight (keyed differences) key := by
  induction differences generalizing tables with
  | nil => exact ⟨valid, rfl, fun _ => (Int.add_zero _).symm⟩
  | cons difference rest ih =>
      have next := insert_valid valid (positive difference List.mem_cons_self) (imaged difference List.mem_cons_self)
      obtain ⟨final, candidate, copies⟩ := ih (insertSlice tables difference) next
        (fun other member => positive other (List.mem_cons_of_mem _ member))
        (fun other member => imaged other (List.mem_cons_of_mem _ member))
      refine ⟨final, candidate.trans (insert_candidate tables difference), ?_⟩
      intro key
      have step := insert_copies valid next key
      rw [List.foldl_cons, copies key, step, keyed_cons]
      push_cast
      omega

variable {tables : DiffTables Key Row} (valid : tables.Valid canonical) {leg : DiffLeg}
  {differences : List (DiffRow Key Row × Nat)} (sliced : Sliced leg tables differences)

include valid sliced

-- What a page does to the tables: the joined table stays, the copies of every
-- key move by its slice, and every slice changes one row.
theorem mutated : (mutate leg tables differences).1.Valid canonical ∧
    (mutate leg tables differences).1.candidate = tables.candidate ∧
    (∀ key, (copiesOf (mutate leg tables differences).1.visible key : Int) =
      copiesOf tables.visible key + diffSign leg * weight (keyed differences) key) ∧
    (mutate leg tables differences).2 = differences.length := by
  cases leg with
  | remove =>
      refine ⟨⟨removed_valid valid sliced, valid.candidate, ?_, valid.started⟩, rfl, ?_, removed_count valid sliced⟩
      · intro after inside
        obtain ⟨row, member, kept⟩ := List.mem_filterMap.mp inside
        rw [(kept_shape kept).1]
        exact valid.fresh row member
      · intro key
        have copies := removed_copies valid sliced key
        change (copiesOf (tables.visible.filterMap (withoutSlice differences)) key : Int) = _ + -1 * _
        omega
  | add =>
      obtain ⟨final, candidate, copies⟩ := inserted differences tables valid sliced.positive (by
        intro difference inside
        exact valid.candidate.imaged _ (sliced.member difference inside))
      refine ⟨final, candidate, ?_, rfl⟩
      intro key
      change (copiesOf (differences.foldl insertSlice tables).visible key : Int) = _ + 1 * _
      rw [copies key, Int.one_mul]

-- The iterated table keeps its rows but for those that are deleted, and the
-- difference of a row falls by its slice.
theorem iterated_after : ∃ keeps : DiffRow Key Row → Option (DiffRow Key Row),
    (mutate leg tables differences).1.iterated leg = (tables.iterated leg).filterMap keeps ∧
      ∀ row ∈ tables.iterated leg, ∀ after, keeps row = some after → after.rowId = row.rowId ∧
        (mutate leg tables differences).1.delta leg after = tables.delta leg row - weight (keyed differences) row.outputKey := by
  obtain ⟨_, candidate, copies, _⟩ := mutated valid sliced
  cases leg with
  | remove =>
      refine ⟨withoutSlice differences, rfl, ?_⟩
      intro row member after kept
      obtain ⟨sameId, sameKey, _⟩ := kept_shape kept
      have left := ((kept_copies valid sliced row member).2 after kept).1
      refine ⟨sameId, ?_⟩
      change (after.multiplicity : Int) - (copiesOf tables.candidate after.outputKey : Int) =
        row.multiplicity - (copiesOf tables.candidate row.outputKey : Int) - _
      rw [sameKey]
      omega
  | add =>
      refine ⟨some, ?_, ?_⟩
      · rw [List.filterMap_some]
        exact candidate
      · intro row member after same
        obtain rfl := Option.some.inj same
        refine ⟨rfl, ?_⟩
        have visible := copies row.outputKey
        change (row.multiplicity : Int) - (copiesOf (mutate .add tables differences).1.visible row.outputKey : Int) =
          row.multiplicity - (copiesOf tables.visible row.outputKey : Int) - _
        rw [visible]
        change _ - (_ + 1 * _) = _
        omega

end

end Shiba.Execution
