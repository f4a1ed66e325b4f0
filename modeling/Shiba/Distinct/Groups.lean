import Shiba.Distinct.Runtime

set_option autoImplicit false

namespace Shiba.Distinct

open Running Weighted Shiba.Stream Shiba.Execution

variable {Row Key Out Bytes : Type}

def itemsOf (rows : List (EffectRow Row)) : List (Row × Int) := rows.map fun row => (row.rowValue, row.weight)

def DistinctSpec.outputKey (spec : DistinctSpec Row Key Out Bytes) (row : Row) : Bytes := spec.canonicalKey (spec.outputs row)

-- No physical row is ever taken away more often than it is there.
def NeverNegative [DecidableEq Row] (rows : List (EffectRow Row)) : Prop :=
  ∀ length row, 0 ≤ weight (itemsOf (rows.take length)) row

theorem items_append (first second : List (EffectRow Row)) : itemsOf (first ++ second) = itemsOf first ++ itemsOf second :=
  List.map_append

section Totals

variable [LinearOrder Key] [LinearOrder Bytes] (spec : DistinctSpec Row Key Out Bytes)

-- How often the rows hold a key, and an output row.
def keyTotal (rows : List (EffectRow Row)) (key : Key) : Int := total (itemsOf rows) fun row => decide (spec.keys row = key)

def outputTotal (rows : List (EffectRow Row)) (outputKey : Bytes) : Int :=
  total (itemsOf rows) fun row => decide (spec.outputKey row = outputKey)

-- The output key that stands for a key: the least one the rows hold.
structure Least (rows : List (EffectRow Row)) (key : Key) (outputKey : Bytes) : Prop where
  ofKey : ∃ row, spec.keys row = key ∧ spec.outputKey row = outputKey
  present : 0 < outputTotal spec rows outputKey
  least : ∀ row, spec.keys row = key → 0 < outputTotal spec rows (spec.outputKey row) → outputKey ≤ spec.outputKey row

omit [LinearOrder Bytes] in
theorem key_total_append (first second : List (EffectRow Row)) (key : Key) :
    keyTotal spec (first ++ second) key = keyTotal spec first key + keyTotal spec second key := by
  unfold keyTotal
  rw [items_append, total_append]

omit [LinearOrder Key] in
theorem output_total_append (first second : List (EffectRow Row)) (outputKey : Bytes) :
    outputTotal spec (first ++ second) outputKey = outputTotal spec first outputKey + outputTotal spec second outputKey := by
  unfold outputTotal
  rw [items_append, total_append]

omit [LinearOrder Key] in
theorem least_unique (rows : List (EffectRow Row)) (key : Key) (one other : Bytes) (first : Least spec rows key one)
    (second : Least spec rows key other) : one = other := by
  obtain ⟨row, isKey, rfl⟩ := first.ofKey
  obtain ⟨another, isToo, rfl⟩ := second.ofKey
  exact le_antisymm (first.least another isToo second.present) (second.least row isKey first.present)

omit [LinearOrder Key] in
-- An output key belongs to one key.
theorem least_key {rows : List (EffectRow Row)} {key other : Key} {outputKey : Bytes}
    (first : Least spec rows key outputKey) {later : List (EffectRow Row)} (second : Least spec later other outputKey) :
    key = other := by
  obtain ⟨row, rfl, isOutput⟩ := first.ofKey
  obtain ⟨another, rfl, isToo⟩ := second.ofKey
  exact spec.keyed row another (isOutput.trans isToo.symm)

section Natural

variable [DecidableEq Row] {rows : List (EffectRow Row)} (natural : ∀ row, 0 ≤ weight (itemsOf rows) row)

include natural

omit [LinearOrder Bytes] in
theorem key_total_nonneg (key : Key) : 0 ≤ keyTotal spec rows key := total_nonneg _ natural _

omit [LinearOrder Key] in
theorem output_total_nonneg (outputKey : Bytes) : 0 ≤ outputTotal spec rows outputKey := total_nonneg _ natural _

theorem output_le_key (row : Row) : outputTotal spec rows (spec.outputKey row) ≤ keyTotal spec rows (spec.keys row) := by
  apply total_mono _ natural
  intro other same
  exact decide_eq_true (spec.keyed other row (of_decide_eq_true same))

-- A key that is there has an output row that is there.
theorem key_has_output (key : Key) (present : 0 < keyTotal spec rows key) :
    ∃ row, spec.keys row = key ∧ 0 < outputTotal spec rows (spec.outputKey row) := by
  obtain ⟨row, hit, there⟩ := (total_pos_iff _ natural _).mp present
  refine ⟨row, of_decide_eq_true hit, Int.lt_of_lt_of_le there ?_⟩
  exact weight_le_total _ natural _ row (decide_eq_true rfl)

theorem least_present {key : Key} {outputKey : Bytes} (least : Least spec rows key outputKey) :
    0 < keyTotal spec rows key := by
  obtain ⟨row, rfl, rfl⟩ := least.ofKey
  exact Int.lt_of_lt_of_le least.present (output_le_key spec natural row)

end Natural

omit [LinearOrder Key] in
-- A page without rows of a key leaves the key's representative alone.
theorem least_untouched (rows page : List (EffectRow Row)) (key : Key)
    (untouched : ∀ row ∈ page, spec.keys row.rowValue ≠ key) (outputKey : Bytes) :
    Least spec (rows ++ page) key outputKey ↔ Least spec rows key outputKey := by
  have same : ∀ row, spec.keys row = key →
      outputTotal spec (rows ++ page) (spec.outputKey row) = outputTotal spec rows (spec.outputKey row) := by
    intro row isKey
    have silent : outputTotal spec page (spec.outputKey row) = 0 := by
      apply sum_of_none
      intro item member
      obtain ⟨effect, inside, rfl⟩ := List.mem_map.mp member
      apply if_neg
      intro hit
      exact untouched effect inside ((spec.keyed _ row (of_decide_eq_true hit)).trans isKey)
    rw [output_total_append, silent, Int.add_zero]
  constructor
  · rintro ⟨⟨row, isKey, rfl⟩, present, least⟩
    refine ⟨⟨row, isKey, rfl⟩, same row isKey ▸ present, ?_⟩
    exact fun other isToo there => least other isToo ((same other isToo).symm ▸ there)
  · rintro ⟨⟨row, isKey, rfl⟩, present, least⟩
    refine ⟨⟨row, isKey, rfl⟩, (same row isKey).symm ▸ present, ?_⟩
    exact fun other isToo there => least other isToo (same other isToo ▸ there)

end Totals

-- The group table: identifiers in order, and one row for each key.
structure Grouped (groups : List (GroupRow Key Out Bytes)) (next : Nat) : Prop where
  ordered : (groups.map GroupRow.groupStateId).Pairwise (· < ·)
  below : ∀ group ∈ groups, group.groupStateId < next
  distinct : (groups.map GroupRow.key).Nodup

namespace Grouped

variable {groups : List (GroupRow Key Out Bytes)} (next : Nat) (grouped : Grouped groups next)

include grouped

variable (one other : GroupRow Key Out Bytes) (first : one ∈ groups) (second : other ∈ groups)

include first second

theorem same_id (same : one.groupStateId = other.groupStateId) : one = other :=
  List.inj_on_of_nodup_map (grouped.ordered.imp fun less => Nat.ne_of_lt less) first second same

theorem same_key (same : one.key = other.key) : one = other := List.inj_on_of_nodup_map grouped.distinct first second same

end Grouped

variable [LinearOrder Key]

theorem find_group_mem {groups : List (GroupRow Key Out Bytes)} {next : Nat} (grouped : Grouped groups next)
    {group : GroupRow Key Out Bytes} (member : group ∈ groups) : findGroup groups group.key = some group := by
  cases found : findGroup groups group.key with
  | none =>
      have absent := List.find?_eq_none.mp found group member
      simp at absent
  | some other =>
      have same := List.find?_some found
      exact congrArg some (grouped.same_key next other group (List.mem_of_find?_eq_some found) member
        (of_decide_eq_true same))

theorem find_group_some {groups : List (GroupRow Key Out Bytes)} {key : Key} {group : GroupRow Key Out Bytes}
    (found : findGroup groups key = some group) : group ∈ groups ∧ group.key = key := by
  have same := List.find?_some found
  exact ⟨List.mem_of_find?_eq_some found, of_decide_eq_true same⟩

theorem find_group_none (groups : List (GroupRow Key Out Bytes)) (key : Key) :
    findGroup groups key = none ↔ ∀ group ∈ groups, group.key ≠ key := by
  rw [findGroup, List.find?_eq_none]
  constructor
  · exact fun absent group member same => absent group member (decide_eq_true same)
  · exact fun absent group member same => absent group member (of_decide_eq_true same)

-- What resolving keys does: a row for each of them, and nothing else.
structure Resolves (before after : DistinctState Key Out Bytes) (keys : List Key) : Prop where
  grouped : Grouped before.groups before.nextGroupStateId → Grouped after.groups after.nextGroupStateId
  kept : ∀ group ∈ before.groups, group ∈ after.groups
  fresh : ∀ group ∈ after.groups, group ∈ before.groups ∨
    (group.key ∈ keys ∧ (∀ other ∈ before.groups, other.key ≠ group.key) ∧ group.outputKey = none ∧
      group.outputRow = none ∧ group.multiplicity = 0)
  found : ∀ key ∈ keys, ∃ group ∈ after.groups, group.key = key
  bag : after.bag = before.bag
  queue : after.queue = before.queue
  touched : after.touched = before.touched

theorem resolve_group (state : DistinctState Key Out Bytes) (key : Key) :
    Resolves state (resolveGroup state key) [key] := by
  unfold resolveGroup
  cases found : findGroup state.groups key with
  | some group =>
      obtain ⟨member, isKey⟩ := find_group_some found
      refine ⟨?_, fun group member => member, fun group member => Or.inl member, ?_, rfl, rfl, rfl⟩
      · intro grouped
        exact ⟨grouped.ordered, fun group member => Nat.lt_succ_of_lt (grouped.below group member), grouped.distinct⟩
      · intro other isOther
        obtain rfl := List.mem_singleton.mp isOther
        exact ⟨group, member, isKey⟩
  | none =>
      have absent := (find_group_none state.groups key).mp found
      refine ⟨?_, ?_, ?_, ?_, rfl, rfl, rfl⟩
      · intro grouped
        refine ⟨?_, ?_, ?_⟩
        · simp only [Option.isSome_none, Bool.false_eq_true, if_false, List.map_append, List.map_cons, List.map_nil]
          rw [List.pairwise_append]
          refine ⟨grouped.ordered, List.pairwise_singleton _ _, ?_⟩
          intro id inside other isOther
          obtain ⟨group, member, rfl⟩ := List.mem_map.mp inside
          obtain rfl := List.mem_singleton.mp isOther
          exact grouped.below group member
        · intro group member
          rcases List.mem_append.mp member with old | new
          · exact Nat.lt_succ_of_lt (grouped.below group old)
          · obtain rfl := List.mem_singleton.mp new
            exact Nat.lt_succ_self _
        · simp only [Option.isSome_none, Bool.false_eq_true, if_false, List.map_append, List.map_cons, List.map_nil]
          rw [List.nodup_append]
          refine ⟨grouped.distinct, List.nodup_singleton _, ?_⟩
          intro one inside other isOther same
          obtain ⟨group, member, rfl⟩ := List.mem_map.mp inside
          obtain rfl := List.mem_singleton.mp isOther
          exact absent group member same
      · exact fun group member => List.mem_append_left _ member
      · intro group member
        rcases List.mem_append.mp member with old | new
        · exact Or.inl old
        · obtain rfl := List.mem_singleton.mp new
          exact Or.inr ⟨List.mem_singleton.mpr rfl, absent, rfl, rfl, rfl⟩
      · intro other isOther
        obtain rfl := List.mem_singleton.mp isOther
        exact ⟨_, List.mem_append_right _ (List.mem_singleton.mpr rfl), rfl⟩

omit [LinearOrder Key] in
theorem resolves_trans (before middle after : DistinctState Key Out Bytes) (first second : List Key)
    (one : Resolves before middle first) (two : Resolves middle after second) :
    Resolves before after (first ++ second) := by
  refine ⟨fun grouped => two.grouped (one.grouped grouped), fun group member => two.kept group (one.kept group member),
    ?_, ?_, two.bag.trans one.bag, two.queue.trans one.queue, two.touched.trans one.touched⟩
  · intro group member
    rcases two.fresh group member with here | ⟨isKey, absent, blank⟩
    · rcases one.fresh group here with old | ⟨isKey, rest⟩
      · exact Or.inl old
      · exact Or.inr ⟨List.mem_append_left _ isKey, rest⟩
    · exact Or.inr ⟨List.mem_append_right _ isKey, fun other old => absent other (one.kept other old), blank⟩
  · intro key isKey
    rcases List.mem_append.mp isKey with early | late
    · obtain ⟨group, member, same⟩ := one.found key early
      exact ⟨group, two.kept group member, same⟩
    · exact two.found key late

theorem resolve_groups (keys : List Key) (state : DistinctState Key Out Bytes) :
    Resolves state (keys.foldl resolveGroup state) keys := by
  induction keys generalizing state with
  | nil =>
      exact ⟨fun grouped => grouped, fun group member => member, fun group member => Or.inl member,
        fun key isKey => (by cases isKey), rfl, rfl, rfl⟩
  | cons key keys ih => exact resolves_trans _ _ _ [key] keys (resolve_group state key) (ih (resolveGroup state key))

section Evaluated

variable (spec : DistinctSpec Row Key Out Bytes) (groups : List (GroupRow Key Out Bytes)) (next : Nat)
  (grouped : Grouped groups next) (page : List (EffectRow Row))
  (found : ∀ row ∈ page, ∃ group ∈ groups, group.key = spec.keys row.rowValue)

def idOf (groups : List (GroupRow Key Out Bytes)) (key : Key) : Nat :=
  ((findGroup groups key).map GroupRow.groupStateId).getD 0

include grouped

variable {spec groups next page}

theorem id_of_group (group : GroupRow Key Out Bytes) (member : group ∈ groups) :
    idOf groups group.key = group.groupStateId := by
  rw [idOf, find_group_mem grouped member]
  rfl

include found

-- Every incoming row meets the one group of its key.
theorem evaluate_rows : evaluate spec groups page = page.map fun row =>
    { groupStateId := idOf groups (spec.keys row.rowValue), outputKey := spec.outputKey row.rowValue
      outputRow := spec.outputs row.rowValue, weight := row.weight } := by
  rw [evaluate, ← List.filterMap_eq_map]
  apply List.filterMap_congr
  intro row member
  obtain ⟨group, inside, isKey⟩ := found row member
  have hit := find_group_mem grouped inside
  rw [isKey] at hit
  simp only [hit, Option.map_some, Function.comp_apply, idOf, Option.getD_some]
  rfl

theorem same_group (group : GroupRow Key Out Bytes) (member : group ∈ groups) (row : EffectRow Row) (inside : row ∈ page) :
    idOf groups (spec.keys row.rowValue) = group.groupStateId ↔ spec.keys row.rowValue = group.key := by
  obtain ⟨other, isOther, isKey⟩ := found row inside
  rw [← isKey, id_of_group grouped other isOther]
  constructor
  · intro same
    rw [grouped.same_id next other group isOther member same]
  · intro same
    rw [grouped.same_key next other group isOther member same]

theorem key_weights : keyWeights (evaluate spec groups page) =
    page.map fun row => (idOf groups (spec.keys row.rowValue), row.weight) := by
  rw [keyWeights, evaluate_rows grouped found, List.map_map]
  rfl

theorem physical_weights : physicalWeights (evaluate spec groups page) =
    page.map fun row => ((idOf groups (spec.keys row.rowValue), spec.outputKey row.rowValue), row.weight) := by
  rw [physicalWeights, evaluate_rows grouped found, List.map_map]
  rfl

-- The weights of a group are those of its key.
theorem key_amounts (group : GroupRow Key Out Bytes) (member : group ∈ groups) :
    amountsOf (keyWeights (evaluate spec groups page)) (fun id => decide (id = group.groupStateId)) =
      amountsOf (itemsOf page) fun row => decide (spec.keys row = group.key) := by
  rw [key_weights grouped found]
  apply amounts_map
  intro row inside
  exact decide_eq_decide.mpr (same_group grouped found group member row inside)

theorem physical_amounts [LinearOrder Bytes] (one : EffectRow Row) :
    amountsOf (physicalWeights (evaluate spec groups page))
        (fun other => decide (other = (idOf groups (spec.keys one.rowValue), spec.outputKey one.rowValue))) =
      amountsOf (itemsOf page) fun row => decide (spec.outputKey row = spec.outputKey one.rowValue) := by
  rw [physical_weights grouped found]
  apply amounts_map
  intro row _
  apply decide_eq_decide.mpr
  constructor
  · exact fun same => congrArg Prod.snd same
  · intro same
    rw [spec.keyed row.rowValue one.rowValue same, same]

end Evaluated

end Shiba.Distinct
