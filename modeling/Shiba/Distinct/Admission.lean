import Shiba.Distinct.Groups

set_option autoImplicit false

namespace Shiba.Distinct

open Running Weighted Shiba.Stream Shiba.Execution

variable {Row Key Out Bytes : Type} [LinearOrder Key] [LinearOrder Bytes]

section Bag

variable (spec : DistinctSpec Row Key Out Bytes) (rows page : List (EffectRow Row))

-- The bag holds every output row of its rows once, below the group of its key.
structure Bagged (spec : DistinctSpec Row Key Out Bytes) (rows : List (EffectRow Row))
    (groups : List (GroupRow Key Out Bytes)) (bag : List (BagRow Out Bytes)) : Prop where
  unique : (bag.map fun row => (row.groupStateId, row.outputKey)).Nodup
  canonical : ∀ row ∈ bag, spec.canonicalKey row.outputRow = row.outputKey
  counted : ∀ row ∈ bag, (row.multiplicity : Int) = outputTotal spec rows row.outputKey
  positive : ∀ row ∈ bag, 0 < row.multiplicity
  owned : ∀ row ∈ bag, ∃ group ∈ groups, group.groupStateId = row.groupStateId ∧
    ∃ value, spec.keys value = group.key ∧ spec.outputKey value = row.outputKey
  covers : ∀ value, 0 < outputTotal spec rows (spec.outputKey value) → ∃ row ∈ bag, row.outputKey = spec.outputKey value

section Found

variable {groups : List (GroupRow Key Out Bytes)} (next : Nat) (grouped : Grouped groups next)
  (bag : List (BagRow Out Bytes)) (bagged : Bagged spec rows groups bag)

include grouped bagged

omit [LinearOrder Key] in
-- The rows of a bag that a group owns are those of its key.
theorem bag_owner (row : BagRow Out Bytes) (inside : row ∈ bag) (group : GroupRow Key Out Bytes) (member : group ∈ groups)
    (value : Row) (isOutput : spec.outputKey value = row.outputKey) :
    row.groupStateId = group.groupStateId ↔ spec.keys value = group.key := by
  obtain ⟨owner, isOwner, sameId, other, isKey, isToo⟩ := bagged.owned row inside
  have sameKey : spec.keys value = owner.key := (spec.keyed value other (isOutput.trans isToo.symm)).trans isKey
  rw [← sameId, sameKey]
  constructor
  · intro same
    rw [grouped.same_id next owner group isOwner member same]
  · intro same
    rw [grouped.same_key next owner group isOwner member same]

omit [LinearOrder Key] in
theorem find_bag_counted [DecidableEq Row] (natural : ∀ row, 0 ≤ weight (itemsOf rows) row)
    (group : GroupRow Key Out Bytes) (member : group ∈ groups) (value : Row) (isKey : spec.keys value = group.key) :
    ((((findBag bag group.groupStateId (spec.outputKey value)).map BagRow.multiplicity).getD 0 : Nat) : Int) =
      outputTotal spec rows (spec.outputKey value) := by
  cases found : findBag bag group.groupStateId (spec.outputKey value) with
  | some row =>
      have inside := List.mem_of_find?_eq_some found
      have same := List.find?_some found
      simp only [Bool.and_eq_true, decide_eq_true_eq] at same
      rw [← same.2]
      exact bagged.counted row inside
  | none =>
      have none : ¬ 0 < outputTotal spec rows (spec.outputKey value) := by
        intro present
        obtain ⟨row, inside, isOutput⟩ := bagged.covers value present
        have absent := List.find?_eq_none.mp found row inside
        have owner := (bag_owner spec rows next grouped bag bagged row inside group member value isOutput.symm).mpr isKey
        simp [owner, isOutput] at absent
      have natural := output_total_nonneg spec natural (spec.outputKey value)
      simp only [Option.map_none, Option.getD_none]
      omega

omit [LinearOrder Key] in
-- The rows a group owns in the bag are the output rows of its key.
theorem owned_rows (group : GroupRow Key Out Bytes) (member : group ∈ groups) (outputKey : Bytes) : (∃ row ∈ bag, row.groupStateId = group.groupStateId ∧ row.outputKey = outputKey) ↔
    (∃ value, spec.keys value = group.key ∧ spec.outputKey value = outputKey) ∧ 0 < outputTotal spec rows outputKey := by
  constructor
  · rintro ⟨row, inside, sameId, rfl⟩
    obtain ⟨owner, isOwner, ownerId, value, isKey, isOutput⟩ := bagged.owned row inside
    obtain rfl := grouped.same_id next owner group isOwner member (ownerId.trans sameId)
    refine ⟨⟨value, isKey, isOutput⟩, ?_⟩
    rw [← bagged.counted row inside]
    exact Int.natCast_pos.mpr (bagged.positive row inside)
  · rintro ⟨⟨value, isKey, rfl⟩, present⟩
    obtain ⟨row, inside, isOutput⟩ := bagged.covers value present
    exact ⟨row, inside, (bag_owner spec rows next grouped bag bagged row inside group member value isOutput.symm).mpr
      isKey, isOutput⟩

end Found

-- A decision about an output row of the page.
structure Decides (spec : DistinctSpec Row Key Out Bytes) (rows page : List (EffectRow Row))
    (groups : List (GroupRow Key Out Bytes)) (one : PhysicalDecision Out Bytes) : Prop where
  incoming : ∃ row ∈ page, one.groupStateId = idOf groups (spec.keys row.rowValue) ∧
    one.outputKey = spec.outputKey row.rowValue
  canonical : spec.canonicalKey one.incomingRow = one.outputKey
  changed : one.decision.newMultiplicity = outputTotal spec (rows ++ page) one.outputKey
  minimum : one.decision.minimum =
    outputTotal spec rows one.outputKey + extreme min (amountsOf (itemsOf page) fun row => decide (spec.outputKey row = one.outputKey))
  maximum : one.decision.maximum =
    outputTotal spec rows one.outputKey + extreme max (amountsOf (itemsOf page) fun row => decide (spec.outputKey row = one.outputKey))

-- The decisions about a page: one for each of its output rows.
structure PageDecisions (spec : DistinctSpec Row Key Out Bytes) (rows page : List (EffectRow Row))
    (groups : List (GroupRow Key Out Bytes)) (physical : List (PhysicalDecision Out Bytes)) : Prop where
  decides : ∀ one ∈ physical, Decides spec rows page groups one
  complete : ∀ row ∈ page, ∃ one ∈ physical, one.groupStateId = idOf groups (spec.keys row.rowValue) ∧
    one.outputKey = spec.outputKey row.rowValue
  unique : (physical.map fun one => (one.groupStateId, one.outputKey)).Nodup
  few : physical.length ≤ page.length

section Page

variable (groups : List (GroupRow Key Out Bytes)) (next : Nat) (grouped : Grouped groups next)
  (bag : List (BagRow Out Bytes)) (bagged : Bagged spec rows groups bag)
  (found : ∀ row ∈ page, ∃ group ∈ groups, group.key = spec.keys row.rowValue)

include grouped found

-- Each output row of the page is met first by some row of it.
theorem first_evaluated (physical : Nat × Bytes)
    (member : physical ∈ ((physicalWeights (evaluate spec groups page)).map Prod.fst).dedup) :
    ∃ row ∈ page, physical = (idOf groups (spec.keys row.rowValue), spec.outputKey row.rowValue) ∧
      (evaluate spec groups page).find? (fun other => decide ((other.groupStateId, other.outputKey) = physical)) =
        some ⟨physical.1, physical.2, spec.outputs row.rowValue, row.weight⟩ := by
  have evaluated := evaluate_rows grouped found
  rw [List.mem_dedup, physical_weights grouped found, List.map_map] at member
  obtain ⟨row, inside, isPhysical⟩ := List.mem_map.mp member
  cases hit : (evaluate spec groups page).find? fun other =>
      decide ((other.groupStateId, other.outputKey) = physical) with
  | none =>
      rw [evaluated] at hit
      have absent := List.find?_eq_none.mp hit _ (List.mem_map_of_mem inside)
      exact absurd (decide_eq_true isPhysical) absent
  | some first =>
      have same := List.find?_some hit
      have isRow := List.mem_of_find?_eq_some hit
      rw [evaluated] at isRow
      obtain ⟨other, isOther, rfl⟩ := List.mem_map.mp isRow
      obtain rfl := of_decide_eq_true same
      exact ⟨other, isOther, rfl, rfl⟩

-- The decisions are about the output rows of the page, each of them once.
theorem decision_names : (physicalDecisions bag (evaluate spec groups page)).map
    (fun one => (one.groupStateId, one.outputKey)) =
      ((physicalWeights (evaluate spec groups page)).map Prod.fst).dedup := by
  rw [physicalDecisions, List.map_filterMap]
  calc _ = ((physicalWeights (evaluate spec groups page)).map Prod.fst).dedup.filterMap some := by
        apply List.filterMap_congr
        intro physical member
        obtain ⟨row, _, _, hit⟩ := first_evaluated spec page groups next grouped found physical member
        rw [hit]
        rfl
    _ = _ := List.filterMap_some

include bagged

theorem page_decisions [DecidableEq Row] (natural : ∀ row, 0 ≤ weight (itemsOf rows) row) :
    PageDecisions spec rows page groups (physicalDecisions bag (evaluate spec groups page)) := by
  have weights := physical_weights grouped found
  have names := decision_names spec page groups next grouped bag found
  refine ⟨?_, ?_, names ▸ List.nodup_dedup _, ?_⟩
  · intro one member
    obtain ⟨physical, inside, isOne⟩ := List.mem_filterMap.mp member
    obtain ⟨row, isIncoming, rfl, hit⟩ := first_evaluated spec page groups next grouped found physical inside
    rw [hit] at isOne
    obtain rfl := Option.some.inj isOne
    obtain ⟨group, isGroup, isKey⟩ := found row isIncoming
    have sameId : idOf groups (spec.keys row.rowValue) = group.groupStateId := by
      rw [← isKey]
      exact id_of_group grouped group isGroup
    have old := find_bag_counted spec rows next grouped bag bagged natural group isGroup row.rowValue isKey.symm
    have amounts := physical_amounts grouped found row
    rw [← sameId] at old
    refine ⟨⟨row, isIncoming, rfl, rfl⟩, rfl, ?_, ?_, ?_⟩
    · simp only [decisionOf, old, amounts, output_total_append, amounts_sum]
      rfl
    · simp only [decisionOf, old, amounts]
    · simp only [decisionOf, old, amounts]
  · intro row inside
    have member : (idOf groups (spec.keys row.rowValue), spec.outputKey row.rowValue) ∈
        (physicalDecisions bag (evaluate spec groups page)).map fun one => (one.groupStateId, one.outputKey) := by
      rw [names, List.mem_dedup, weights, List.map_map]
      exact List.mem_map.mpr ⟨row, inside, rfl⟩
    obtain ⟨one, isOne, same⟩ := List.mem_map.mp member
    exact ⟨one, isOne, congrArg Prod.fst same, congrArg Prod.snd same⟩
  · have length := congrArg List.length names
    have few := (List.dedup_sublist ((physicalWeights (evaluate spec groups page)).map Prod.fst)).length_le
    rw [List.length_map] at length
    rw [length]
    apply Nat.le_trans few
    rw [weights, List.length_map, List.length_map]

end Page

omit [LinearOrder Key] in
-- An output row that no row of the page has is left alone by it.
theorem output_silent (outputKey : Bytes) (absent : ∀ row ∈ page, spec.outputKey row.rowValue ≠ outputKey) :
    outputTotal spec page outputKey = 0 := by
  apply sum_of_none
  intro item member
  obtain ⟨row, inside, rfl⟩ := List.mem_map.mp member
  exact if_neg fun hit => absent row inside (of_decide_eq_true hit)

section Bagging

variable [DecidableEq Row] (groups : List (GroupRow Key Out Bytes)) (next : Nat) (grouped : Grouped groups next)
  (bag : List (BagRow Out Bytes)) (bagged : Bagged spec rows groups bag)
  (found : ∀ row ∈ page, ∃ group ∈ groups, group.key = spec.keys row.rowValue)
  (physical : List (PhysicalDecision Out Bytes)) (decided : PageDecisions spec rows page groups physical)
  (natural : ∀ row, 0 ≤ weight (itemsOf (rows ++ page)) row)

def rewriteBag (physical : List (PhysicalDecision Out Bytes)) (row : BagRow Out Bytes) : BagRow Out Bytes :=
  match physical.find? fun one => one.matches row with
  | some one => { row with multiplicity := one.decision.newMultiplicity.toNat }
  | none => row

omit [LinearOrder Key] in
theorem rewrite_same (row : BagRow Out Bytes) : (rewriteBag physical row).groupStateId = row.groupStateId ∧
    (rewriteBag physical row).outputKey = row.outputKey ∧ (rewriteBag physical row).outputRow = row.outputRow := by
  unfold rewriteBag
  split
  · exact ⟨rfl, rfl, rfl⟩
  · exact ⟨rfl, rfl, rfl⟩

omit [LinearOrder Key] in
theorem matches_iff (one : PhysicalDecision Out Bytes) (row : BagRow Out Bytes) :
    one.matches row = true ↔ row.groupStateId = one.groupStateId ∧ row.outputKey = one.outputKey := by
  simp [PhysicalDecision.matches]

include grouped bagged found decided natural

-- A row of the old bag ends at the count of the longer list, and is removed when that is nothing.
theorem rewritten_row (row : BagRow Out Bytes) (inside : row ∈ bag) :
    ((rewriteBag physical row).multiplicity : Int) = outputTotal spec (rows ++ page) row.outputKey ∧
      ((physical.any fun one => one.matches row && decide (one.decision.newMultiplicity = 0)) = true ↔
        outputTotal spec (rows ++ page) row.outputKey = 0) := by
  have whole := output_total_nonneg spec natural row.outputKey
  cases hit : physical.find? fun one => one.matches row with
  | some one =>
      have member := List.mem_of_find?_eq_some hit
      have same := List.find?_some hit
      obtain ⟨sameId, sameKey⟩ := (matches_iff one row).mp same
      have changed := (decided.decides one member).changed
      rw [← sameKey] at changed
      have isRow : rewriteBag physical row = { row with multiplicity := one.decision.newMultiplicity.toNat } := by
        unfold rewriteBag
        rw [hit]
      refine ⟨?_, ?_⟩
      · rw [isRow, ← changed]
        exact Int.toNat_of_nonneg (changed ▸ whole)
      · rw [List.any_eq_true]
        constructor
        · rintro ⟨other, isOther, both⟩
          rw [Bool.and_eq_true, matches_iff, decide_eq_true_eq] at both
          have same : other = one := List.inj_on_of_nodup_map decided.unique isOther member
            (by rw [← both.1.1, ← both.1.2, sameId, sameKey])
          rw [← changed, ← same]
          exact both.2
        · intro none
          refine ⟨one, member, ?_⟩
          rw [Bool.and_eq_true, matches_iff, decide_eq_true_eq]
          exact ⟨⟨sameId, sameKey⟩, changed.trans none⟩
  | none =>
      have unmatched := List.find?_eq_none.mp hit
      have silent : outputTotal spec page row.outputKey = 0 := by
        apply output_silent
        intro effect incoming isOutput
        obtain ⟨one, member, sameId, sameKey⟩ := decided.complete effect incoming
        obtain ⟨group, isGroup, isKey⟩ := found effect incoming
        have owner := (bag_owner spec rows next grouped bag bagged row inside group isGroup effect.rowValue
          isOutput).mpr isKey.symm
        rw [← isKey, id_of_group grouped group isGroup] at sameId
        exact unmatched one member ((matches_iff one row).mpr ⟨owner.trans sameId.symm, isOutput.symm.trans sameKey.symm⟩)
      have counted := bagged.counted row inside
      have positive := bagged.positive row inside
      have isRow : rewriteBag physical row = row := by
        unfold rewriteBag
        rw [hit]
      rw [output_total_append, silent, Int.add_zero, isRow]
      refine ⟨counted, ?_⟩
      rw [List.any_eq_true]
      constructor
      · rintro ⟨one, member, both⟩
        exact absurd (Bool.and_eq_true_iff.mp both).1 (unmatched one member)
      · intro none
        omega

theorem admitted_bag : Bagged spec (rows ++ page) groups (admitBag bag physical).1 := by
  have rewritten := rewritten_row spec rows page groups next grouped bag bagged found physical decided natural
  have isBag : (admitBag bag physical).1 =
      (bag.filter fun row => !physical.any fun one => one.matches row && decide (one.decision.newMultiplicity = 0)).map
          (rewriteBag physical) ++
        (physical.filter fun one =>
          (findBag bag one.groupStateId one.outputKey).isNone && decide (0 < one.decision.newMultiplicity)).map
            fun one => ⟨one.groupStateId, one.outputKey, one.incomingRow, one.decision.newMultiplicity.toNat⟩ := rfl
  have kept : ∀ row ∈ bag, row ∈ (bag.filter fun row =>
      !physical.any fun one => one.matches row && decide (one.decision.newMultiplicity = 0)) ↔
        0 < outputTotal spec (rows ++ page) row.outputKey := by
    intro row inside
    have whole := output_total_nonneg spec natural row.outputKey
    have removed := (rewritten row inside).2
    rw [List.mem_filter, Bool.not_eq_true', Bool.eq_false_iff, ne_eq, removed]
    constructor
    · rintro ⟨_, present⟩
      omega
    · intro present
      exact ⟨inside, Int.ne_of_gt present⟩
  rw [isBag]
  refine ⟨?_, ?_, ?_, ?_, ?_, ?_⟩
  · rw [List.map_append, List.map_map, List.map_map, List.nodup_append]
    refine ⟨?_, ?_, ?_⟩
    · have same : (fun row => (row.groupStateId, row.outputKey)) ∘ rewriteBag physical =
          fun row : BagRow Out Bytes => (row.groupStateId, row.outputKey) := by
        funext row
        have frame := rewrite_same physical row
        simp only [Function.comp_apply, frame.1, frame.2.1]
      rw [same]
      exact bagged.unique.sublist (List.filter_sublist.map _)
    · exact decided.unique.sublist (List.filter_sublist.map _)
    · intro first old second new same
      obtain ⟨row, member, rfl⟩ := List.mem_map.mp old
      obtain ⟨one, created, rfl⟩ := List.mem_map.mp new
      have inside := (List.mem_filter.mp member).1
      have fresh := (Bool.and_eq_true_iff.mp (List.mem_filter.mp created).2).1
      have frame := rewrite_same physical row
      simp only [Function.comp_apply, frame.1, frame.2.1, Prod.mk.injEq] at same
      have absent := List.find?_eq_none.mp (Option.isNone_iff_eq_none.mp fresh) row inside
      simp [same.1, same.2] at absent
  · intro row member
    rcases List.mem_append.mp member with old | new
    · obtain ⟨before, isBefore, rfl⟩ := List.mem_map.mp old
      have frame := rewrite_same physical before
      rw [frame.2.1, frame.2.2]
      exact bagged.canonical before (List.mem_filter.mp isBefore).1
    · obtain ⟨one, created, rfl⟩ := List.mem_map.mp new
      exact (decided.decides one (List.mem_filter.mp created).1).canonical
  · intro row member
    rcases List.mem_append.mp member with old | new
    · obtain ⟨before, isBefore, rfl⟩ := List.mem_map.mp old
      rw [(rewrite_same physical before).2.1]
      exact (rewritten before (List.mem_filter.mp isBefore).1).1
    · obtain ⟨one, created, rfl⟩ := List.mem_map.mp new
      have positive := of_decide_eq_true (Bool.and_eq_true_iff.mp (List.mem_filter.mp created).2).2
      rw [Int.toNat_of_nonneg (Int.le_of_lt positive)]
      exact (decided.decides one (List.mem_filter.mp created).1).changed
  · intro row member
    rcases List.mem_append.mp member with old | new
    · obtain ⟨before, isBefore, rfl⟩ := List.mem_map.mp old
      have inside := (List.mem_filter.mp isBefore).1
      have present := (kept before inside).mp isBefore
      rw [← (rewritten before inside).1] at present
      exact Int.natCast_pos.mp present
    · obtain ⟨one, created, rfl⟩ := List.mem_map.mp new
      have positive := of_decide_eq_true (Bool.and_eq_true_iff.mp (List.mem_filter.mp created).2).2
      exact Int.lt_toNat.mpr positive
  · intro row member
    rcases List.mem_append.mp member with old | new
    · obtain ⟨before, isBefore, rfl⟩ := List.mem_map.mp old
      have frame := rewrite_same physical before
      rw [frame.1, frame.2.1]
      exact bagged.owned before (List.mem_filter.mp isBefore).1
    · obtain ⟨one, created, rfl⟩ := List.mem_map.mp new
      obtain ⟨effect, incoming, sameId, sameKey⟩ := (decided.decides one (List.mem_filter.mp created).1).incoming
      obtain ⟨group, isGroup, isKey⟩ := found effect incoming
      refine ⟨group, isGroup, ?_, effect.rowValue, isKey.symm, sameKey.symm⟩
      rw [sameId, ← isKey, id_of_group grouped group isGroup]
  · intro value present
    by_cases there : ∃ row ∈ bag, row.outputKey = spec.outputKey value
    · obtain ⟨row, inside, isOutput⟩ := there
      refine ⟨rewriteBag physical row, List.mem_append_left _ (List.mem_map_of_mem ?_), ?_⟩
      · exact (kept row inside).mpr (isOutput ▸ present)
      · exact (rewrite_same physical row).2.1.trans isOutput
    · have old : ¬ 0 < outputTotal spec rows (spec.outputKey value) := fun before => there (bagged.covers value before)
      rw [output_total_append] at present
      have incoming : ∃ effect ∈ page, spec.outputKey effect.rowValue = spec.outputKey value := by
        by_contra absent
        have silent := output_silent spec page (spec.outputKey value)
          fun effect inside same => absent ⟨effect, inside, same⟩
        omega
      obtain ⟨effect, inside, isOutput⟩ := incoming
      obtain ⟨one, member, sameId, sameKey⟩ := decided.complete effect inside
      have changed := (decided.decides one member).changed
      rw [sameKey, isOutput, output_total_append] at changed
      have fresh : (findBag bag one.groupStateId one.outputKey).isNone = true := by
        rw [Option.isNone_iff_eq_none, findBag, List.find?_eq_none]
        intro row isRow both
        simp only [Bool.and_eq_true, decide_eq_true_eq] at both
        exact there ⟨row, isRow, both.2.trans (sameKey.trans isOutput)⟩
      refine ⟨_, List.mem_append_right _ (List.mem_map.mpr ⟨one, List.mem_filter.mpr ⟨member, ?_⟩, rfl⟩),
        sameKey.trans isOutput⟩
      rw [Bool.and_eq_true]
      exact ⟨fresh, decide_eq_true (changed ▸ present)⟩

end Bagging

end Bag

end Shiba.Distinct
