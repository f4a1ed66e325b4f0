import Shiba.Distinct.Admission

set_option autoImplicit false

namespace Shiba.Distinct

open Running Weighted Shiba.Stream Shiba.Execution

variable {Row Key Out Bytes : Type} [LinearOrder Key] [LinearOrder Bytes]

-- A group counts the rows of its key, and shows the key's representative.
structure Shown (spec : DistinctSpec Row Key Out Bytes) (rows : List (EffectRow Row)) (group : GroupRow Key Out Bytes) :
    Prop where
  counted : (group.multiplicity : Int) = keyTotal spec rows group.key
  least : ∀ outputKey, group.outputKey = some outputKey ↔ Least spec rows group.key outputKey
  canonical : group.outputRow.map spec.canonicalKey = group.outputKey
  present : group.outputKey.isSome = true ↔ 0 < group.multiplicity

-- A group shows the row that the bag has below the group's output key.
def Matching (groups : List (GroupRow Key Out Bytes)) (bag : List (BagRow Out Bytes)) : Prop :=
  ∀ group ∈ groups, ∀ row ∈ bag, row.groupStateId = group.groupStateId → group.outputKey = some row.outputKey →
    group.outputRow = some row.outputRow

-- The state relations between two prefixes, all rows so far admitted.
structure Admitted (spec : DistinctSpec Row Key Out Bytes) (rows : List (EffectRow Row))
    (state : DistinctState Key Out Bytes) : Prop where
  grouped : Grouped state.groups state.nextGroupStateId
  bagged : Bagged spec rows state.groups state.bag
  shown : ∀ group ∈ state.groups, Shown spec rows group
  positive : ∀ group ∈ state.groups, 0 < group.multiplicity
  covers : ∀ key, 0 < keyTotal spec rows key → ∃ group ∈ state.groups, group.key = key
  bounded : ∀ key, keyTotal spec rows key ≤ bigintMax
  matching : Matching state.groups state.bag
  touched : state.touched = []

-- The touched relation names the groups of a page, with their net weights.
structure Touching (spec : DistinctSpec Row Key Out Bytes) (page : List (EffectRow Row))
    (groups : List (GroupRow Key Out Bytes)) (touched : List (Nat × Int)) : Prop where
  unique : (touched.map Prod.fst).Nodup
  named : ∀ one ∈ touched, ∃ group ∈ groups, one = (group.groupStateId, keyTotal spec page group.key) ∧
    ∃ row ∈ page, spec.keys row.rowValue = group.key
  complete : ∀ group ∈ groups, (∃ row ∈ page, spec.keys row.rowValue = group.key) →
    (group.groupStateId, keyTotal spec page group.key) ∈ touched

-- The state relations between the two statements of a prefix: the bag has the
-- page, the groups have not.
structure Pending (spec : DistinctSpec Row Key Out Bytes) (rows page : List (EffectRow Row))
    (state : DistinctState Key Out Bytes) : Prop where
  grouped : Grouped state.groups state.nextGroupStateId
  bagged : Bagged spec (rows ++ page) state.groups state.bag
  shown : ∀ group ∈ state.groups, Shown spec rows group
  positive : ∀ group ∈ state.groups, 0 < group.multiplicity ∨ ∃ row ∈ page, spec.keys row.rowValue = group.key
  covers : ∀ key, 0 < keyTotal spec (rows ++ page) key → ∃ group ∈ state.groups, group.key = key
  matching : Matching state.groups state.bag
  touching : Touching spec page state.groups state.touched

-- The running multiplicity of every key stays a bigint.
def Fits (spec : DistinctSpec Row Key Out Bytes) (rows page : List (EffectRow Row)) : Prop :=
  ∀ length key, keyTotal spec (rows ++ page.take length) key ≤ bigintMax

section

variable (spec : DistinctSpec Row Key Out Bytes) (rows page : List (EffectRow Row))

omit [LinearOrder Key] [LinearOrder Bytes] in
theorem never_negative_part [DecidableEq Row] (never : NeverNegative (rows ++ page)) (length : Nat) (row : Row) :
    0 ≤ weight (itemsOf (rows ++ page.take length)) row := by
  have here := never (rows.length + length) row
  rwa [List.take_length_add_append] at here

theorem items_take {Value : Type} (effects : List (EffectRow Value)) (length : Nat) :
    (itemsOf effects).take length = itemsOf (effects.take length) := List.map_take.symm

omit [LinearOrder Bytes] in
theorem collapsed_mem (key : Key) : key ∈ collapsedKeys spec page ↔ ∃ row ∈ page, spec.keys row.rowValue = key := by
  rw [collapsedKeys, List.mem_insertionSort, List.mem_dedup, List.mem_map]

theorem filter_map_length {α β : Type} (parts : List α) (pick : α → Option β) (all : ∀ part ∈ parts, (pick part).isSome) :
    (parts.filterMap pick).length = parts.length := by
  rw [List.length_filterMap_eq_countP, List.countP_eq_length]
  exact all

section Resolved

variable [DecidableEq Row] {state : DistinctState Key Out Bytes} (resolving : DistinctState Key Out Bytes) (admitted : Admitted spec rows state)
  (natural : ∀ row, 0 ≤ weight (itemsOf rows) row) (resolves : Resolves state resolving (collapsedKeys spec page))

include admitted natural resolves

-- A new group is a group of no rows.
theorem resolved_shown (group : GroupRow Key Out Bytes) (member : group ∈ resolving.groups) : Shown spec rows group := by
  rcases resolves.fresh group member with old | ⟨_, absent, noKey, noRow, none⟩
  · exact admitted.shown group old
  · have empty : keyTotal spec rows group.key = 0 := by
      have natural := key_total_nonneg spec natural group.key
      by_contra present
      obtain ⟨other, isOther, same⟩ := admitted.covers group.key (by omega)
      exact absent other isOther same
    refine ⟨by rw [none, empty]; rfl, ?_, by rw [noKey, noRow]; rfl, by simp [noKey, none]⟩
    intro outputKey
    rw [noKey]
    constructor
    · intro wrong
      cases wrong
    · intro least
      have present := least_present spec natural least
      omega

omit [DecidableEq Row] natural in
theorem resolved_bagged : Bagged spec rows resolving.groups state.bag := by
  refine ⟨admitted.bagged.unique, admitted.bagged.canonical, admitted.bagged.counted, admitted.bagged.positive, ?_,
    admitted.bagged.covers⟩
  intro row inside
  obtain ⟨group, member, rest⟩ := admitted.bagged.owned row inside
  exact ⟨group, resolves.kept group member, rest⟩

omit [LinearOrder Bytes] [DecidableEq Row] admitted natural in
theorem resolved_found (row : EffectRow Row) (inside : row ∈ page) :
    ∃ group ∈ resolving.groups, group.key = spec.keys row.rowValue :=
  resolves.found _ ((collapsed_mem spec page _).mpr ⟨row, inside, rfl⟩)

end Resolved

section Touched

variable (groups : List (GroupRow Key Out Bytes)) (next : Nat) (grouped : Grouped groups next)
  (found : ∀ row ∈ page, ∃ group ∈ groups, group.key = spec.keys row.rowValue)

def keyCollapsed (evaluated : List (Evaluated Out Bytes)) : List Nat := ((keyWeights evaluated).map Prod.fst).dedup

include grouped found

omit [LinearOrder Bytes] in
theorem key_collapsed_mem (id : Nat) : id ∈ keyCollapsed (evaluate spec groups page) ↔
    ∃ group ∈ groups, group.groupStateId = id ∧ ∃ row ∈ page, spec.keys row.rowValue = group.key := by
  rw [keyCollapsed, List.mem_dedup, key_weights grouped found, List.map_map, List.mem_map]
  constructor
  · rintro ⟨row, inside, rfl⟩
    obtain ⟨group, member, isKey⟩ := found row inside
    refine ⟨group, member, ?_, row, inside, isKey.symm⟩
    exact ((same_group grouped found group member row inside).mpr isKey.symm).symm
  · rintro ⟨group, member, rfl, row, inside, isKey⟩
    exact ⟨row, inside, (same_group grouped found group member row inside).mpr isKey⟩

omit [LinearOrder Bytes] in
theorem key_net (group : GroupRow Key Out Bytes) (member : group ∈ groups) :
    total (keyWeights (evaluate spec groups page)) (fun other => decide (other = group.groupStateId)) =
      keyTotal spec page group.key := by
  rw [← amounts_sum, key_amounts grouped found group member, amounts_sum]
  rfl

omit [LinearOrder Bytes] in
theorem touched_written : Touching spec page groups ((keyCollapsed (evaluate spec groups page)).map fun id =>
    (id, total (keyWeights (evaluate spec groups page)) fun other => decide (other = id))) := by
  refine ⟨?_, ?_, ?_⟩
  · rw [List.map_map]
    have same : (Prod.fst ∘ fun id =>
        (id, total (keyWeights (evaluate spec groups page)) fun other => decide (other = id))) = id := rfl
    rw [same, List.map_id]
    exact List.nodup_dedup _
  · intro one member
    obtain ⟨id, inside, rfl⟩ := List.mem_map.mp member
    obtain ⟨group, isGroup, rfl, row, incoming, isKey⟩ :=
      (key_collapsed_mem spec page groups next grouped found id).mp inside
    refine ⟨group, isGroup, ?_, row, incoming, isKey⟩
    rw [key_net spec page groups next grouped found group isGroup]
  · intro group member incoming
    refine List.mem_map.mpr ⟨group.groupStateId, ?_, ?_⟩
    · exact (key_collapsed_mem spec page groups next grouped found _).mpr ⟨group, member, rfl, incoming⟩
    · rw [key_net spec page groups next grouped found group member]

omit [LinearOrder Bytes] in
theorem resolved_length : ((collapsedKeys spec page).filterMap (findGroup groups)).length = (collapsedKeys spec page).length := by
  apply filter_map_length
  intro key member
  obtain ⟨row, inside, rfl⟩ := (collapsed_mem spec page key).mp member
  obtain ⟨group, isGroup, isKey⟩ := found row inside
  rw [← isKey, find_group_mem grouped isGroup]
  rfl

omit [LinearOrder Bytes] found in
theorem find_resolved (group : GroupRow Key Out Bytes) (member : group ∈ groups)
    (incoming : ∃ row ∈ page, spec.keys row.rowValue = group.key) :
    ((collapsedKeys spec page).filterMap (findGroup groups)).find?
      (fun other => decide (other.groupStateId = group.groupStateId)) = some group := by
  have inResolved : group ∈ (collapsedKeys spec page).filterMap (findGroup groups) :=
    List.mem_filterMap.mpr ⟨group.key, (collapsed_mem spec page group.key).mpr incoming, find_group_mem grouped member⟩
  cases hit : ((collapsedKeys spec page).filterMap (findGroup groups)).find?
      fun other => decide (other.groupStateId = group.groupStateId) with
  | none =>
      have absent := List.find?_eq_none.mp hit group inResolved
      simp at absent
  | some other =>
      have isOther := List.mem_of_find?_eq_some hit
      have same := List.find?_some hit
      obtain ⟨key, _, isFound⟩ := List.mem_filterMap.mp isOther
      obtain ⟨otherMember, _⟩ := find_group_some isFound
      exact congrArg some (grouped.same_id _ other group otherMember member (of_decide_eq_true same))

def keyDecisions (spec : DistinctSpec Row Key Out Bytes) (page : List (EffectRow Row))
    (groups : List (GroupRow Key Out Bytes)) : List (Nat × Decision) :=
  (keyCollapsed (evaluate spec groups page)).filterMap fun id =>
    (((collapsedKeys spec page).filterMap (findGroup groups)).find? fun group =>
      decide (group.groupStateId = id)).map (keyDecision (evaluate spec groups page))

omit [LinearOrder Bytes] in
-- There is one decision for each group of the page.
theorem key_decisions : (keyDecisions spec page groups).length = (keyCollapsed (evaluate spec groups page)).length ∧
    ∀ decision, decision ∈ keyDecisions spec page groups ↔ ∃ group ∈ groups,
      (∃ row ∈ page, spec.keys row.rowValue = group.key) ∧ decision = keyDecision (evaluate spec groups page) group := by
  have named : ∀ id ∈ keyCollapsed (evaluate spec groups page), ∃ group ∈ groups, group.groupStateId = id ∧
      (∃ row ∈ page, spec.keys row.rowValue = group.key) ∧ ((collapsedKeys spec page).filterMap (findGroup groups)).find?
        (fun other => decide (other.groupStateId = id)) = some group := by
    intro id member
    obtain ⟨group, isGroup, rfl, incoming⟩ := (key_collapsed_mem spec page groups next grouped found id).mp member
    exact ⟨group, isGroup, rfl, incoming, find_resolved spec page groups next grouped group isGroup incoming⟩
  constructor
  · apply filter_map_length
    intro id member
    obtain ⟨group, _, _, _, hit⟩ := named id member
    rw [hit]
    rfl
  · intro decision
    rw [keyDecisions, List.mem_filterMap]
    constructor
    · rintro ⟨id, member, isDecision⟩
      obtain ⟨group, isGroup, _, incoming, hit⟩ := named id member
      rw [hit] at isDecision
      exact ⟨group, isGroup, incoming, (Option.some.inj isDecision).symm⟩
    · rintro ⟨group, isGroup, incoming, rfl⟩
      refine ⟨group.groupStateId, ?_, ?_⟩
      · exact (key_collapsed_mem spec page groups next grouped found _).mpr ⟨group, isGroup, rfl, incoming⟩
      · rw [find_resolved spec page groups next grouped group isGroup incoming]
        rfl

omit [LinearOrder Bytes] in
theorem key_collapsed_few : (keyCollapsed (evaluate spec groups page)).length ≤ page.length := by
  have few := (List.dedup_sublist ((keyWeights (evaluate spec groups page)).map Prod.fst)).length_le
  apply Nat.le_trans few
  rw [key_weights grouped found, List.length_map, List.length_map]

end Touched

theorem status_ok (counted : Bool) (decisions : List Decision) : admissionStatus counted decisions = .ok ↔
    counted = true ∧ ∀ decision ∈ decisions, 0 ≤ decision.minimum ∧ decision.maximum ≤ bigintMax := by
  unfold admissionStatus
  cases counted with
  | false => simp
  | true =>
      simp only [Bool.not_true, Bool.false_eq_true, if_false, true_and]
      by_cases low : decisions.any (fun decision => decide (decision.minimum < 0)) = true
      · rw [if_pos low]
        obtain ⟨decision, member, negative⟩ := List.any_eq_true.mp low
        have below := of_decide_eq_true negative
        constructor
        · intro wrong
          cases wrong
        · intro all
          have range := all decision member
          omega
      · rw [if_neg low]
        by_cases high : decisions.any (fun decision => decide ((bigintMax : Int) < decision.maximum)) = true
        · rw [if_pos high]
          obtain ⟨decision, member, overflow⟩ := List.any_eq_true.mp high
          have above := of_decide_eq_true overflow
          constructor
          · intro wrong
            cases wrong
          · intro all
            have range := all decision member
            omega
        · rw [if_neg high]
          refine ⟨fun _ decision member => ⟨?_, ?_⟩, fun _ => rfl⟩
          · by_contra below
            exact low (List.any_eq_true.mpr ⟨decision, member, decide_eq_true (by omega)⟩)
          · by_contra above
            exact high (List.any_eq_true.mpr ⟨decision, member, decide_eq_true (by omega)⟩)

section Ranges

variable [DecidableEq Row] (never : NeverNegative (rows ++ page)) (groups : List (GroupRow Key Out Bytes)) (next : Nat)
  (grouped : Grouped groups next) (found : ∀ row ∈ page, ∃ group ∈ groups, group.key = spec.keys row.rowValue)

include never

theorem natural_before (row : Row) : 0 ≤ weight (itemsOf rows) row := by
  have here := never_negative_part rows page never 0 row
  rwa [List.take_zero, List.append_nil] at here

theorem natural_after (row : Row) : 0 ≤ weight (itemsOf (rows ++ page)) row := by
  have here := never_negative_part rows page never page.length row
  rwa [List.take_length] at here

theorem physical_range (one : PhysicalDecision Out Bytes) (decides : Decides spec rows page groups one) :
    0 ≤ one.decision.minimum ∧ (Fits spec rows page → one.decision.maximum ≤ bigintMax) := by
  obtain ⟨row, _, _, isOutput⟩ := decides.incoming
  have running : ∀ length, outputTotal spec rows one.outputKey +
      total ((itemsOf page).take length) (fun other => decide (spec.outputKey other = one.outputKey)) =
        outputTotal spec (rows ++ page.take length) one.outputKey := by
    intro length
    rw [items_take, output_total_append]
    rfl
  have start := output_total_nonneg spec (natural_before rows page never) one.outputKey
  constructor
  · rw [decides.minimum, lowest_totals _ _ _ start]
    intro length
    rw [running]
    exact output_total_nonneg spec (never_negative_part rows page never length) _
  · intro fits
    have within : ∀ length, outputTotal spec (rows ++ page.take length) one.outputKey ≤ bigintMax := by
      intro length
      rw [isOutput]
      exact Int.le_trans (output_le_key spec (never_negative_part rows page never length) row.rowValue) (fits length _)
    have before := within 0
    rw [List.take_zero, List.append_nil] at before
    rw [decides.maximum, highest_totals _ _ _ _ before]
    intro length
    rw [running]
    exact within length

include grouped found

theorem key_range (group : GroupRow Key Out Bytes) (member : group ∈ groups) (shown : Shown spec rows group)
    (bounded : keyTotal spec rows group.key ≤ bigintMax) :
    0 ≤ (keyDecision (evaluate spec groups page) group).2.minimum ∧
      ((keyDecision (evaluate spec groups page) group).2.maximum ≤ bigintMax ↔
        ∀ length, keyTotal spec (rows ++ page.take length) group.key ≤ bigintMax) := by
  have amounts := key_amounts grouped found group member
  have running : ∀ length, keyTotal spec rows group.key +
      total ((itemsOf page).take length) (fun other => decide (spec.keys other = group.key)) =
        keyTotal spec (rows ++ page.take length) group.key := by
    intro length
    rw [items_take, key_total_append]
    rfl
  have start := key_total_nonneg spec (natural_before rows page never) group.key
  simp only [keyDecision, decisionOf, amounts, shown.counted]
  rw [lowest_totals _ _ _ start, highest_totals _ _ _ _ bounded]
  simp only [running, and_true, iff_self]
  exact fun length => key_total_nonneg spec (never_negative_part rows page never length) _

end Ranges

section Admit

variable [DecidableEq Row] (never : NeverNegative (rows ++ page)) (state : DistinctState Key Out Bytes)
  (admitted : Admitted spec rows state)

def resolvedState (spec : DistinctSpec Row Key Out Bytes) (page : List (EffectRow Row))
    (state : DistinctState Key Out Bytes) : DistinctState Key Out Bytes :=
  (collapsedKeys spec page).foldl resolveGroup state

-- What the first statement leaves behind when its status is ok.
def admittedState (spec : DistinctSpec Row Key Out Bytes) (page : List (EffectRow Row))
    (state : DistinctState Key Out Bytes) : DistinctState Key Out Bytes :=
  let evaluated := evaluate spec (resolvedState spec page state).groups page
  { resolvedState spec page state with
    bag := (admitBag state.bag (physicalDecisions state.bag evaluated)).1
    touched := (keyCollapsed evaluated).map fun id =>
      (id, total (keyWeights evaluated) fun other => decide (other = id)) }

def admittedRows (spec : DistinctSpec Row Key Out Bytes) (page : List (EffectRow Row))
    (state : DistinctState Key Out Bytes) : Nat :=
  let groups := (resolvedState spec page state).groups
  (admitBag state.bag (physicalDecisions state.bag (evaluate spec groups page))).2 +
    ((collapsedKeys spec page).filterMap (findGroup groups)).length + (admittedState spec page state).touched.length

include never admitted

omit [DecidableEq Row] never in
-- A page keeps the bag rows of what the groups show.
theorem admitted_matching (resolving : DistinctState Key Out Bytes) (resolves : Resolves state resolving (collapsedKeys spec page))
    (physical : List (PhysicalDecision Out Bytes)) : Matching resolving.groups (admitBag state.bag physical).1 := by
  intro group member row inside sameId isKey
  rcases resolves.fresh group member with old | ⟨_, _, noKey, _⟩
  · rcases List.mem_append.mp inside with kept | created
    · obtain ⟨before, isBefore, rfl⟩ := List.mem_map.mp kept
      have frame := rewrite_same physical before
      have there := admitted.matching group old before (List.mem_filter.mp isBefore).1 (frame.1.symm.trans sameId)
        (isKey.trans (congrArg some frame.2.1))
      exact there.trans (congrArg some frame.2.2.symm)
    · obtain ⟨one, isOne, rfl⟩ := List.mem_map.mp created
      have fresh := (Bool.and_eq_true_iff.mp (List.mem_filter.mp isOne).2).1
      have least := ((admitted.shown group old).least _).mp isKey
      obtain ⟨other, isOther, otherId, isOutput⟩ := (owned_rows spec rows _ admitted.grouped state.bag
        admitted.bagged group old _).mpr ⟨least.ofKey, least.present⟩
      have absent := List.find?_eq_none.mp (Option.isNone_iff_eq_none.mp fresh) other isOther
      simp [otherId, isOutput, ← sameId] at absent
  · rw [noKey] at isKey
    cases isKey

theorem pending_state : Pending spec rows page (admittedState spec page state) := by
  have natural := natural_before rows page never
  have resolves : Resolves state (resolvedState spec page state) _ := resolve_groups (collapsedKeys spec page) state
  have grouped := resolves.grouped admitted.grouped
  have found := resolved_found spec page _ resolves
  have bagged := resolved_bagged spec rows page _ admitted resolves
  have decided := page_decisions spec rows page _ _ grouped state.bag bagged found natural
  have shown := resolved_shown spec rows page _ admitted natural resolves
  refine ⟨grouped, ?_, shown, ?_, ?_, admitted_matching spec rows page state admitted _ resolves _,
    touched_written spec page _ _ grouped found⟩
  · exact admitted_bag spec rows page _ _ grouped state.bag bagged found _ decided (natural_after rows page never)
  · intro group member
    rcases resolves.fresh group member with old | ⟨isKey, _⟩
    · exact Or.inl (admitted.positive group old)
    · exact Or.inr ((collapsed_mem spec page group.key).mp isKey)
  · intro key present
    by_cases incoming : ∃ row ∈ page, spec.keys row.rowValue = key
    · obtain ⟨row, inside, rfl⟩ := incoming
      exact found row inside
    · have silent : keyTotal spec page key = 0 := by
        apply sum_of_none
        intro item member
        obtain ⟨row, inside, rfl⟩ := List.mem_map.mp member
        exact if_neg fun hit => incoming ⟨row, inside, of_decide_eq_true hit⟩
      rw [key_total_append, silent, Int.add_zero] at present
      obtain ⟨group, member, isKey⟩ := admitted.covers key present
      exact ⟨group, resolves.kept group member, isKey⟩

omit [DecidableEq Row] never in
-- The first statement touches at most a group for each row, and no queue.
theorem admitted_touched : (admittedState spec page state).touched.length ≤ page.length ∧
    (admittedState spec page state).queue = state.queue := by
  have resolves : Resolves state (resolvedState spec page state) _ := resolve_groups (collapsedKeys spec page) state
  have found := resolved_found spec page _ resolves
  refine ⟨?_, resolves.queue⟩
  simp only [admittedState, List.length_map]
  exact key_collapsed_few spec page _ _ (resolves.grouped admitted.grouped) found

-- The status is ok exactly when every running multiplicity fits.
theorem page_status : admissionStatus true
    ((keyDecisions spec page (resolvedState spec page state).groups).map Prod.snd ++
      (physicalDecisions state.bag (evaluate spec (resolvedState spec page state).groups page)).map
        PhysicalDecision.decision) = .ok ↔ Fits spec rows page := by
  have natural := natural_before rows page never
  have resolves : Resolves state (resolvedState spec page state) _ := resolve_groups (collapsedKeys spec page) state
  have grouped := resolves.grouped admitted.grouped
  have found := resolved_found spec page _ resolves
  have bagged := resolved_bagged spec rows page _ admitted resolves
  have decided := page_decisions spec rows page _ _ grouped state.bag bagged found natural
  have shown := resolved_shown spec rows page _ admitted natural resolves
  have decisions := (key_decisions spec page _ _ grouped found).2
  have ranges := fun group member => key_range spec rows page never _ _ grouped found group member (shown group member)
    (admitted.bounded group.key)
  rw [status_ok]
  constructor
  · rintro ⟨_, all⟩ length key
    by_cases incoming : ∃ row ∈ page, spec.keys row.rowValue = key
    · obtain ⟨row, inside, rfl⟩ := incoming
      obtain ⟨group, member, isKey⟩ := found row inside
      have isDecision := (decisions _).mpr ⟨group, member, ⟨row, inside, isKey.symm⟩, rfl⟩
      have range := (all _ (List.mem_append_left _ (List.mem_map_of_mem isDecision))).2
      rw [← isKey]
      exact (ranges group member).2.mp range length
    · have silent : keyTotal spec (page.take length) key = 0 := by
        apply sum_of_none
        intro item member
        obtain ⟨row, inside, rfl⟩ := List.mem_map.mp member
        exact if_neg fun hit => incoming ⟨row, List.mem_of_mem_take inside, of_decide_eq_true hit⟩
      rw [key_total_append, silent, Int.add_zero]
      exact admitted.bounded key
  · intro fits
    refine ⟨rfl, ?_⟩
    intro decision member
    rcases List.mem_append.mp member with ofKey | ofOutput
    · obtain ⟨one, isOne, rfl⟩ := List.mem_map.mp ofKey
      obtain ⟨group, isGroup, _, rfl⟩ := (decisions one).mp isOne
      have range := ranges group isGroup
      exact ⟨range.1, range.2.mpr fun length => fits length group.key⟩
    · obtain ⟨one, isOne, rfl⟩ := List.mem_map.mp ofOutput
      have range := physical_range spec rows page never _ one (decided.decides one isOne)
      exact ⟨range.1, range.2 fits⟩

-- The first statement accepts a page exactly when every running multiplicity fits.
theorem admit_prefix : ∃ touchedKeys touchedPhysical, touchedKeys ≤ page.length ∧ touchedPhysical ≤ page.length ∧
    ∀ result, admitPrefix spec state page = .ok result ↔ Fits spec rows page ∧
      result = (admittedState spec page state, touchedKeys, touchedPhysical, admittedRows spec page state) := by
  have natural := natural_before rows page never
  have resolves : Resolves state (resolvedState spec page state) _ := resolve_groups (collapsedKeys spec page) state
  have grouped := resolves.grouped admitted.grouped
  have found := resolved_found spec page _ resolves
  have bagged := resolved_bagged spec rows page _ admitted resolves
  have decided := page_decisions spec rows page _ _ grouped state.bag bagged found natural
  have status := page_status spec rows page never state admitted
  have length := (key_decisions spec page _ _ grouped found).1
  have none : (resolvedState spec page state).touched = [] := resolves.touched.trans admitted.touched
  have evaluated : (evaluate spec (resolvedState spec page state).groups page).length = page.length := by
    rw [evaluate_rows grouped found, List.length_map]
  have counted : (decide ((evaluate spec (resolvedState spec page state).groups page).length = page.length) &&
      decide (((collapsedKeys spec page).filterMap (findGroup (resolvedState spec page state).groups)).length =
        (collapsedKeys spec page).length) &&
      decide ((keyDecisions spec page (resolvedState spec page state).groups).length =
        (keyCollapsed (evaluate spec (resolvedState spec page state).groups page)).length)) = true := by
    simp only [evaluated, length, resolved_length spec page _ _ grouped found, decide_true, Bool.and_self]
  refine ⟨(keyDecisions spec page (resolvedState spec page state).groups).length,
    (physicalDecisions state.bag (evaluate spec (resolvedState spec page state).groups page)).length, ?_, decided.few, ?_⟩
  · rw [length]
    exact key_collapsed_few spec page _ _ grouped found
  · intro result
    have isPrefix : admitPrefix spec state page = (do
        checkAdmission (admissionStatus
          (decide ((evaluate spec (resolvedState spec page state).groups page).length = page.length) &&
            decide (((collapsedKeys spec page).filterMap (findGroup (resolvedState spec page state).groups)).length =
              (collapsedKeys spec page).length) &&
            decide ((keyDecisions spec page (resolvedState spec page state).groups).length =
              (keyCollapsed (evaluate spec (resolvedState spec page state).groups page)).length))
          ((keyDecisions spec page (resolvedState spec page state).groups).map Prod.snd ++
            (physicalDecisions state.bag (evaluate spec (resolvedState spec page state).groups page)).map
              PhysicalDecision.decision))
        return ({ admittedState spec page state with
            touched := (resolvedState spec page state).touched ++ (admittedState spec page state).touched },
          (keyDecisions spec page (resolvedState spec page state).groups).length,
          (physicalDecisions state.bag (evaluate spec (resolvedState spec page state).groups page)).length,
          admittedRows spec page state)) := rfl
    rw [isPrefix, counted, checkAdmission, refuse_bind_ok, decide_eq_false_iff_not, not_not, status, none, List.nil_append]
    apply and_congr_right
    intro _
    constructor
    · intro same
      exact (Except.ok.inj same).symm
    · rintro rfl
      rfl

end Admit

end

end Shiba.Distinct
