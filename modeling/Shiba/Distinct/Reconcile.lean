import Shiba.Library.Handover
import Shiba.Distinct.Prefix

set_option autoImplicit false

namespace Shiba.Distinct

open Handover Weighted Shiba.Stream Shiba.Execution

variable {Row Key Out Bytes : Type} [LinearOrder Key] [LinearOrder Bytes]

omit [LinearOrder Key] in
theorem least_row_none (bag : List (BagRow Out Bytes)) : leastRow bag = none ↔ bag = [] := by
  cases bag with
  | nil => simp [leastRow]
  | cons row rest =>
      simp only [leastRow, reduceCtorEq, iff_false]
      cases leastRow rest with
      | none => simp
      | some other =>
          simp only
          split
          · simp
          · simp

omit [LinearOrder Key] in
theorem least_row_some (bag : List (BagRow Out Bytes)) (least : BagRow Out Bytes) (isLeast : leastRow bag = some least) :
    least ∈ bag ∧ ∀ row ∈ bag, least.outputKey ≤ row.outputKey := by
  induction bag generalizing least with
  | nil => cases isLeast
  | cons row rest ih =>
      rw [leastRow] at isLeast
      cases found : leastRow rest with
      | none =>
          rw [found] at isLeast
          obtain rfl := Option.some.inj isLeast
          obtain rfl := (least_row_none rest).mp found
          refine ⟨List.mem_cons_self, ?_⟩
          intro other member
          obtain rfl := List.mem_singleton.mp member
          exact le_refl _
      | some other =>
          rw [found] at isLeast
          obtain ⟨inside, least'⟩ := ih other found
          simp only at isLeast
          split at isLeast
          · rename_i below
            obtain rfl := Option.some.inj isLeast
            refine ⟨List.mem_cons_self, ?_⟩
            intro another member
            rcases List.mem_cons.mp member with rfl | later
            · exact le_refl _
            · exact le_trans below (least' another later)
          · rename_i above
            obtain rfl := Option.some.inj isLeast
            refine ⟨List.mem_cons_of_mem _ inside, ?_⟩
            intro another member
            rcases List.mem_cons.mp member with rfl | later
            · exact le_of_lt (lt_of_not_ge above)
            · exact least' another later

section Representative

variable (spec : DistinctSpec Row Key Out Bytes) (rows : List (EffectRow Row)) (groups : List (GroupRow Key Out Bytes))
  (next : Nat) (grouped : Grouped groups next) (bag : List (BagRow Out Bytes)) (bagged : Bagged spec rows groups bag)
  (group : GroupRow Key Out Bytes) (member : group ∈ groups)

include grouped bagged member

omit [LinearOrder Key] in
theorem representative_least (outputKey : Bytes) :
    (representative bag group.groupStateId).map BagRow.outputKey = some outputKey ↔
      Least spec rows group.key outputKey := by
  have owned := owned_rows spec rows next grouped bag bagged group member
  have forward : ∀ row, representative bag group.groupStateId = some row → Least spec rows group.key row.outputKey := by
    intro row isRow
    obtain ⟨inside, least⟩ := least_row_some _ row isRow
    obtain ⟨isBag, sameId⟩ := List.mem_filter.mp inside
    obtain ⟨ofKey, present⟩ := (owned row.outputKey).mp ⟨row, isBag, of_decide_eq_true sameId, rfl⟩
    refine ⟨ofKey, present, ?_⟩
    intro value isKey there
    obtain ⟨other, isOther, otherId, isOutput⟩ := (owned (spec.outputKey value)).mpr ⟨⟨value, isKey, rfl⟩, there⟩
    rw [← isOutput]
    exact least other (List.mem_filter.mpr ⟨isOther, decide_eq_true otherId⟩)
  constructor
  · intro isSome
    obtain ⟨row, isRow, rfl⟩ := Option.map_eq_some_iff.mp isSome
    exact forward row isRow
  · intro least
    obtain ⟨row, isBag, sameId, isOutput⟩ := (owned outputKey).mpr ⟨least.ofKey, least.present⟩
    cases isRow : representative bag group.groupStateId with
    | none =>
        have empty := (least_row_none _).mp isRow
        have there : row ∈ bag.filter fun one => decide (one.groupStateId = group.groupStateId) :=
          List.mem_filter.mpr ⟨isBag, decide_eq_true sameId⟩
        rw [empty] at there
        cases there
    | some other =>
        rw [Option.map_some, least_unique spec rows group.key _ _ (forward other isRow) least]

omit [LinearOrder Key] grouped member in
theorem representative_canonical (row : BagRow Out Bytes) (isRow : representative bag group.groupStateId = some row) :
    spec.canonicalKey row.outputRow = row.outputKey :=
  bagged.canonical row (List.mem_filter.mp (least_row_some _ row isRow).1).1

theorem representative_present [DecidableEq Row] (natural : ∀ row, 0 ≤ weight (itemsOf rows) row) :
    (representative bag group.groupStateId).isSome = true ↔ 0 < keyTotal spec rows group.key := by
  constructor
  · intro isSome
    obtain ⟨row, isRow⟩ := Option.isSome_iff_exists.mp isSome
    have least := (representative_least spec rows groups next grouped bag bagged group member row.outputKey).mp
      (by rw [isRow]; rfl)
    exact least_present spec natural least
  · intro present
    obtain ⟨value, isKey, there⟩ := key_has_output spec natural group.key present
    obtain ⟨row, isBag, sameId, _⟩ := (owned_rows spec rows next grouped bag bagged group member _).mpr
      ⟨⟨value, isKey, rfl⟩, there⟩
    rw [Option.isSome_iff_ne_none, ne_eq, representative, least_row_none]
    intro empty
    have inside : row ∈ bag.filter fun one => decide (one.groupStateId = group.groupStateId) :=
      List.mem_filter.mpr ⟨isBag, decide_eq_true sameId⟩
    rw [empty] at inside
    cases inside

end Representative

section Desired

variable [DecidableEq Row] (spec : DistinctSpec Row Key Out Bytes) (rows page : List (EffectRow Row))
  (never : NeverNegative (rows ++ page)) (state : DistinctState Key Out Bytes) (pending : Pending spec rows page state)

def incomingKey (spec : DistinctSpec Row Key Out Bytes) (page : List (EffectRow Row)) (key : Key) : Bool :=
  page.any fun row => decide (spec.keys row.rowValue = key)

-- Where a group of the page is going.
def desiredOf (spec : DistinctSpec Row Key Out Bytes) (rows page : List (EffectRow Row)) (state : DistinctState Key Out Bytes)
    (group : GroupRow Key Out Bytes) : Desired Key Out Bytes where
  group := group
  newMultiplicity := keyTotal spec (rows ++ page) group.key
  representative := representative state.bag group.groupStateId

variable {spec rows page state}

omit [LinearOrder Bytes] [DecidableEq Row] in
theorem incoming_iff (key : Key) : incomingKey spec page key = true ↔ ∃ row ∈ page, spec.keys row.rowValue = key := by
  simp [incomingKey]

omit [LinearOrder Bytes] [DecidableEq Row] in
theorem key_silent (key : Key) (absent : incomingKey spec page key = false) : keyTotal spec page key = 0 := by
  apply sum_of_none
  intro item member
  obtain ⟨row, inside, rfl⟩ := List.mem_map.mp member
  apply if_neg
  intro hit
  have there := (incoming_iff key).mpr ⟨row, inside, of_decide_eq_true hit⟩
  rw [absent] at there
  cases there

include pending

omit [DecidableEq Row] in
theorem find_touched (group : GroupRow Key Out Bytes) (member : group ∈ state.groups) :
    state.touched.find? (fun one => decide (one.1 = group.groupStateId)) =
      if incomingKey spec page group.key then some (group.groupStateId, keyTotal spec page group.key) else none := by
  cases incoming : incomingKey spec page group.key with
  | true =>
      have there := pending.touching.complete group member ((incoming_iff _).mp incoming)
      cases hit : state.touched.find? fun one => decide (one.1 = group.groupStateId) with
      | none =>
          have absent := List.find?_eq_none.mp hit _ there
          simp at absent
      | some one =>
          have same := List.find?_some hit
          exact congrArg some (List.inj_on_of_nodup_map pending.touching.unique (List.mem_of_find?_eq_some hit) there
            (of_decide_eq_true same))
  | false =>
      simp only [Bool.false_eq_true, if_false]
      rw [List.find?_eq_none]
      intro one inside same
      obtain ⟨other, isOther, rfl, row, isRow, isKey⟩ := pending.touching.named one inside
      have equal := pending.grouped.same_id _ other group isOther member (of_decide_eq_true same)
      rw [equal] at isKey
      have there := (incoming_iff _).mpr ⟨row, isRow, isKey⟩
      rw [incoming] at there
      cases there

omit [DecidableEq Row] in
theorem desired_groups : desiredGroups state =
    (state.groups.filter fun group => incomingKey spec page group.key).map (desiredOf spec rows page state) := by
  rw [desiredGroups, ← List.filterMap_eq_map, List.filterMap_filter]
  apply List.filterMap_congr
  intro group member
  rw [find_touched pending group member]
  by_cases incoming : incomingKey spec page group.key = true
  · rw [if_pos incoming, if_pos incoming, Option.map_some, Function.comp_apply, desiredOf, key_total_append,
      (pending.shown group member).counted]
  · rw [if_neg incoming, if_neg incoming]
    rfl

omit [DecidableEq Row] in
theorem desired_length : (desiredGroups state).length = state.touched.length := by
  have nodup : ((state.groups.filter fun group => incomingKey spec page group.key).map GroupRow.groupStateId).Nodup :=
    (pending.grouped.ordered.imp fun less => Nat.ne_of_lt less).sublist (List.filter_sublist.map _)
  have perm : ((state.groups.filter fun group => incomingKey spec page group.key).map GroupRow.groupStateId).Perm
      (state.touched.map Prod.fst) := by
    rw [List.perm_ext_iff_of_nodup nodup pending.touching.unique]
    intro id
    constructor
    · intro member
      obtain ⟨group, inside, rfl⟩ := List.mem_map.mp member
      obtain ⟨isGroup, incoming⟩ := List.mem_filter.mp inside
      exact List.mem_map.mpr ⟨_, pending.touching.complete group isGroup ((incoming_iff _).mp incoming), rfl⟩
    · intro member
      obtain ⟨one, inside, rfl⟩ := List.mem_map.mp member
      obtain ⟨group, isGroup, rfl, incoming⟩ := pending.touching.named one inside
      exact List.mem_map.mpr ⟨group, List.mem_filter.mpr ⟨isGroup, (incoming_iff _).mpr incoming⟩, rfl⟩
  have length := perm.length_eq
  rw [List.length_map, List.length_map] at length
  rw [desired_groups pending, List.length_map, length]

omit [DecidableEq Row] in
theorem find_desired (group : GroupRow Key Out Bytes) (member : group ∈ state.groups) :
    (desiredGroups state).find? (fun one => decide (one.group.groupStateId = group.groupStateId)) =
      if incomingKey spec page group.key then some (desiredOf spec rows page state group) else none := by
  have isDesired := desired_groups pending
  cases incoming : incomingKey spec page group.key with
  | true =>
      have there : desiredOf spec rows page state group ∈ desiredGroups state := by
        rw [isDesired]
        exact List.mem_map_of_mem (List.mem_filter.mpr ⟨member, incoming⟩)
      cases hit : (desiredGroups state).find? fun one => decide (one.group.groupStateId = group.groupStateId) with
      | none =>
          have absent := List.find?_eq_none.mp hit _ there
          simp [desiredOf] at absent
      | some one =>
          have same := List.find?_some hit
          have inside := List.mem_of_find?_eq_some hit
          rw [isDesired] at inside
          obtain ⟨other, isOther, rfl⟩ := List.mem_map.mp inside
          have equal := pending.grouped.same_id _ other group (List.mem_filter.mp isOther).1 member (of_decide_eq_true same)
          rw [equal]
          rfl
  | false =>
      simp only [Bool.false_eq_true, if_false]
      rw [List.find?_eq_none, isDesired]
      intro one inside same
      obtain ⟨other, isOther, rfl⟩ := List.mem_map.mp inside
      obtain ⟨isGroup, there⟩ := List.mem_filter.mp isOther
      have equal := pending.grouped.same_id _ other group isGroup member (of_decide_eq_true same)
      rw [equal, incoming] at there
      cases there

omit [DecidableEq Row] in
-- The groups that the page leaves empty are removed.
theorem removes_iff (group : GroupRow Key Out Bytes) (member : group ∈ state.groups) :
    removesGroup (desiredGroups state) group = true ↔ keyTotal spec (rows ++ page) group.key = 0 := by
  have isDesired := desired_groups pending
  rw [removesGroup, List.any_eq_true, isDesired]
  constructor
  · rintro ⟨one, inside, both⟩
    obtain ⟨other, isOther, rfl⟩ := List.mem_map.mp inside
    rw [Bool.and_eq_true, decide_eq_true_eq, decide_eq_true_eq] at both
    have equal := pending.grouped.same_id _ other group (List.mem_filter.mp isOther).1 member both.1
    rw [← equal]
    exact both.2
  · intro empty
    have incoming : incomingKey spec page group.key = true := by
      rcases pending.positive group member with positive | incoming
      · by_contra absent
        have counted := (pending.shown group member).counted
        rw [key_total_append, key_silent group.key (Bool.eq_false_iff.mpr absent)] at empty
        omega
      · exact (incoming_iff _).mpr incoming
    refine ⟨desiredOf spec rows page state group, List.mem_map_of_mem (List.mem_filter.mpr ⟨member, incoming⟩), ?_⟩
    rw [Bool.and_eq_true, decide_eq_true_eq, decide_eq_true_eq]
    exact ⟨rfl, empty⟩

omit [DecidableEq Row] in
-- The key of a group's representative changes exactly when its row does.
theorem same_representative (group : GroupRow Key Out Bytes) (member : group ∈ state.groups) :
    group.outputKey = (representative state.bag group.groupStateId).map BagRow.outputKey ↔
      group.outputRow = (representative state.bag group.groupStateId).map BagRow.outputRow := by
  have canonical := (pending.shown group member).canonical
  cases isRow : representative state.bag group.groupStateId with
  | none =>
      rw [Option.map_none, Option.map_none, ← canonical, Option.map_eq_none_iff]
  | some row =>
      have sameKey := representative_canonical spec (rows ++ page) state.groups state.bag pending.bagged group row isRow
      obtain ⟨inside, sameId⟩ := List.mem_filter.mp (least_row_some _ row isRow).1
      constructor
      · intro same
        exact pending.matching group member row inside (of_decide_eq_true sameId) same
      · intro same
        rw [same, Option.map_some, Option.map_some, sameKey] at canonical
        exact canonical.symm

include never

theorem updated_shown (group : GroupRow Key Out Bytes) (member : group ∈ state.groups) :
    (updateGroup (desiredGroups state) group).groupStateId = group.groupStateId ∧
      (updateGroup (desiredGroups state) group).key = group.key ∧
      Shown spec (rows ++ page) (updateGroup (desiredGroups state) group) ∧
      (updateGroup (desiredGroups state) group).outputRow =
        (representative state.bag group.groupStateId).map BagRow.outputRow := by
  have least := representative_least spec (rows ++ page) state.groups _ pending.grouped state.bag pending.bagged group member
  have whole := key_total_nonneg spec (natural_after rows page never) group.key
  have hit := find_desired pending group member
  cases incoming : incomingKey spec page group.key with
  | true =>
      have updated : updateGroup (desiredGroups state) group =
          { group with
            outputKey := (representative state.bag group.groupStateId).map BagRow.outputKey
            outputRow := (representative state.bag group.groupStateId).map BagRow.outputRow
            multiplicity := (keyTotal spec (rows ++ page) group.key).toNat } := by
        unfold updateGroup
        rw [hit, incoming]
        rfl
      rw [updated]
      have present := representative_present spec (rows ++ page) state.groups _ pending.grouped state.bag pending.bagged group
        member (natural_after rows page never)
      refine ⟨rfl, rfl, ⟨?_, least, ?_, ?_⟩, rfl⟩
      · exact Int.toNat_of_nonneg whole
      · cases isRow : representative state.bag group.groupStateId with
        | none => rfl
        | some row =>
            have canonical := representative_canonical spec (rows ++ page) state.groups state.bag pending.bagged group row
              isRow
            exact congrArg some canonical
      · rw [Option.isSome_map, present]
        exact Int.pos_iff_toNat_pos
  | false =>
      have shown := pending.shown group member
      have silent := key_silent group.key incoming
      have untouched : ∀ row ∈ page, spec.keys row.rowValue ≠ group.key := by
        intro row inside isKey
        have there := (incoming_iff _).mpr ⟨row, inside, isKey⟩
        rw [incoming] at there
        cases there
      have sameLeast := least_untouched spec rows page group.key untouched
      have updated : updateGroup (desiredGroups state) group = group := by
        unfold updateGroup
        rw [hit, incoming]
        rfl
      rw [updated]
      refine ⟨rfl, rfl, ⟨?_, ?_, shown.canonical, shown.present⟩, ?_⟩
      · rw [key_total_append, silent, Int.add_zero]
        exact shown.counted
      · intro outputKey
        exact (shown.least outputKey).trans (sameLeast outputKey).symm
      · have sameKey : group.outputKey = (representative state.bag group.groupStateId).map BagRow.outputKey := by
          apply Option.ext
          intro outputKey
          exact (shown.least outputKey).trans ((sameLeast outputKey).symm.trans (least outputKey).symm)
        exact (same_representative pending group member).mp sameKey

end Desired

end Shiba.Distinct
