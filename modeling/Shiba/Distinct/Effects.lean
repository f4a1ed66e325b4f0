import Shiba.Distinct.Reconcile

set_option autoImplicit false

namespace Shiba.Distinct

open Handover Weighted Shiba.Stream Shiba.Execution

variable {Row Key Out Bytes : Type} [LinearOrder Key] [LinearOrder Bytes] [DecidableEq Out]

-- What a group shows before and after its page.
def slotOf (state : DistinctState Key Out Bytes) (group : GroupRow Key Out Bytes) : Option Out × Option Out :=
  (group.outputRow, (representative state.bag group.groupStateId).map BagRow.outputRow)

def pageEffects (spec : DistinctSpec Row Key Out Bytes) (lsn : Lsn) (state : DistinctState Key Out Bytes) :
    List (QueuedEffect Out Bytes) := (desiredGroups state).flatMap fun one => one.effects spec lsn

def signedRow (effect : QueuedEffect Out Bytes) : Out × Int := (effect.outputRow, effect.weight)

-- An effect as it can be drained.
structure Drainable (spec : DistinctSpec Row Key Out Bytes) (lsn : Lsn) (effect : QueuedEffect Out Bytes) : Prop where
  canonical : effect.outputKey = spec.canonicalKey effect.outputRow
  measured : effect.rowBytes = spec.outputLength effect.outputRow + 8
  caused : effect.causalLsn = lsn

def reconciledState (spec : DistinctSpec Row Key Out Bytes) (lsn : Lsn) (state : DistinctState Key Out Bytes) :
    DistinctState Key Out Bytes :=
  { state with
    groups := (state.groups.filter fun group => !removesGroup (desiredGroups state) group).map
      (updateGroup (desiredGroups state))
    queue := state.queue ++ pageEffects spec lsn state
    touched := [] }

-- What the groups show, as a bag of output rows.
def shownRows (groups : List (GroupRow Key Out Bytes)) (output : Out) : Int :=
  (groups.map fun group => shows group.outputRow output).sum

omit [LinearOrder Key] in
theorem shown_before (state : DistinctState Key Out Bytes) (output : Out) :
    held (state.groups.map (slotOf state)) output = shownRows state.groups output := by
  rw [held, List.map_map]
  rfl

section Effects

variable [DecidableEq Row] (spec : DistinctSpec Row Key Out Bytes) (rows page : List (EffectRow Row)) (lsn : Lsn)
  (never : NeverNegative (rows ++ page)) (state : DistinctState Key Out Bytes) (pending : Pending spec rows page state)

include pending

omit [LinearOrder Key] [DecidableEq Row] pending in
theorem flat_map_filter {α β : Type} (parts : List α) (chosen : α → Bool) (first second : α → List β)
    (same : ∀ part ∈ parts, (if chosen part = true then first part else []) = second part) :
    (parts.filter chosen).flatMap first = parts.flatMap second := by
  induction parts with
  | nil => rfl
  | cons part parts ih =>
      have here := same part List.mem_cons_self
      have rest := ih fun other member => same other (List.mem_cons_of_mem _ member)
      rw [List.filter_cons, List.flatMap_cons, ← here, ← rest]
      split
      · rw [List.flatMap_cons]
      · rfl

omit [DecidableEq Row] in
theorem desired_effects (group : GroupRow Key Out Bytes) (member : group ∈ state.groups) :
    ((desiredOf spec rows page state group).effects spec lsn).map signedRow = legs (slotOf state group) ∧
      ∀ effect ∈ (desiredOf spec rows page state group).effects spec lsn, Drainable spec lsn effect := by
  have shown := pending.shown group member
  have canonical := fun row => representative_canonical spec (rows ++ page) state.groups state.bag pending.bagged group row
  have keys : (desiredOf spec rows page state group).changes = true ↔
      ¬ group.outputKey = (representative state.bag group.groupStateId).map BagRow.outputKey := decide_eq_true_iff
  have changes := keys.trans (not_congr (same_representative pending group member))
  unfold Desired.effects legs slotOf
  by_cases same : group.outputRow = (representative state.bag group.groupStateId).map BagRow.outputRow
  · have still : ¬ (desiredOf spec rows page state group).changes = true := fun wrong => changes.mp wrong same
    rw [if_neg still, if_pos same]
    exact ⟨rfl, fun effect wrong => by cases wrong⟩
  · rw [if_pos (changes.mpr same), if_neg same]
    have old : group.outputKey = group.outputRow.map spec.canonicalKey := shown.canonical.symm
    have isGroup : (desiredOf spec rows page state group).group = group := rfl
    have isRow : (desiredOf spec rows page state group).representative = representative state.bag group.groupStateId := rfl
    simp only [isGroup, isRow, old]
    constructor
    · cases group.outputRow <;> cases representative state.bag group.groupStateId <;> rfl
    · intro effect inside
      rcases List.mem_append.mp inside with left | right
      · cases row : group.outputRow with
        | none => simp [row] at left
        | some value =>
            simp only [row, Option.map_some, Option.toList_some, List.zip_cons_cons, List.zip_nil_right, List.map_cons,
              List.map_nil, List.mem_singleton] at left
            subst left
            exact ⟨rfl, rfl, rfl⟩
      · obtain ⟨row, isOne, rfl⟩ := List.mem_map.mp right
        exact ⟨(canonical row (Option.mem_toList.mp isOne)).symm, rfl, rfl⟩

include never

-- The page queues for every group the change of what it shows.
theorem effects_legs : (pageEffects spec lsn state).map signedRow = (state.groups.map (slotOf state)).flatMap legs ∧
    ∀ effect ∈ pageEffects spec lsn state, Drainable spec lsn effect := by
  have isDesired := desired_groups pending
  have perGroup := fun group member => desired_effects spec rows page lsn state pending group member
  unfold pageEffects
  rw [isDesired, List.flatMap_map]
  constructor
  · rw [List.map_flatMap, List.flatMap_map]
    apply flat_map_filter
    intro group member
    by_cases incoming : incomingKey spec page group.key = true
    · rw [if_pos incoming]
      exact (perGroup group member).1
    · have unchanged : updateGroup (desiredGroups state) group = group := by
        unfold updateGroup
        rw [find_desired pending group member, if_neg incoming]
      have same := (updated_shown never pending group member).2.2.2
      rw [unchanged] at same
      rw [if_neg incoming]
      exact (if_pos same).symm
  · intro effect inside
    obtain ⟨group, isGroup, isEffect⟩ := List.mem_flatMap.mp inside
    exact (perGroup group (List.mem_filter.mp isGroup).1).2 effect isEffect

omit [DecidableEq Out] [DecidableEq Row] never in
theorem slots_apart : Apart (state.groups.map (slotOf state)) := by
  have distinct : state.groups.Pairwise fun one other => one.key ≠ other.key := List.pairwise_map.mp pending.grouped.distinct
  have speaks : ∀ group ∈ state.groups, ∀ output, Speaks (slotOf state group) output →
      ∃ held, Least spec held group.key (spec.canonicalKey output) := by
    intro group member output speaks
    rcases speaks with old | new
    · have isKey : group.outputKey = some (spec.canonicalKey output) := by
        rw [← (pending.shown group member).canonical, show group.outputRow = some output from old]
        rfl
      exact ⟨rows, ((pending.shown group member).least _).mp isKey⟩
    · obtain ⟨row, isRow, rfl⟩ := Option.map_eq_some_iff.mp new
      refine ⟨rows ++ page, (representative_least spec (rows ++ page) state.groups _ pending.grouped state.bag
        pending.bagged group member _).mp ?_⟩
      rw [isRow, Option.map_some, representative_canonical spec (rows ++ page) state.groups state.bag pending.bagged group
        row isRow]
  unfold Apart
  rw [List.pairwise_map]
  apply distinct.imp_of_mem
  intro one other isOne isOther differ output first second
  obtain ⟨held, least⟩ := speaks one isOne output first
  obtain ⟨later, leastToo⟩ := speaks other isOther output second
  exact differ (least_key spec least leastToo)

theorem shown_after (output : Out) : taken (state.groups.map (slotOf state)) output =
    shownRows (reconciledState spec lsn state).groups output := by
  have updated := fun group member => updated_shown never pending group member
  have removes := fun group member => removes_iff pending group member
  have natural := natural_after rows page never
  have split : ∀ groups : List (GroupRow Key Out Bytes), (∀ group ∈ groups, group ∈ state.groups) →
      ((groups.map (slotOf state)).map fun slot => shows slot.2 output).sum =
        (((groups.filter fun group => !removesGroup (desiredGroups state) group).map
          (updateGroup (desiredGroups state))).map fun group => shows group.outputRow output).sum := by
    intro groups
    induction groups with
    | nil => exact fun _ => rfl
    | cons group rest ih =>
        intro inside
        have member := inside group List.mem_cons_self
        have later := ih fun other isOther => inside other (List.mem_cons_of_mem _ isOther)
        have isRow : (updateGroup (desiredGroups state) group).outputRow = (slotOf state group).2 :=
          (updated group member).2.2.2
        rw [List.map_cons, List.map_cons, List.sum_cons, later, List.filter_cons]
        cases gone : removesGroup (desiredGroups state) group with
        | false =>
            rw [Bool.not_false, if_pos rfl, List.map_cons, List.map_cons, List.sum_cons, isRow]
        | true =>
            have empty := (removes group member).mp gone
            have none : (slotOf state group).2 = none := by
              have absent : ¬ (representative state.bag group.groupStateId).isSome = true := by
                rw [representative_present spec (rows ++ page) state.groups _ pending.grouped state.bag pending.bagged group
                  member natural, empty]
                exact Int.lt_irrefl 0
              rw [slotOf, Option.not_isSome_iff_eq_none.mp absent]
              rfl
            simp [none, shows]
  exact split state.groups fun group member => member

omit [DecidableEq Out] in
-- The state relations after a page: every row up to its end is admitted.
theorem reconciled_admitted (fits : Fits spec rows page) : Admitted spec (rows ++ page) (reconciledState spec lsn state) := by
  have natural := natural_after rows page never
  have updated := fun group member => updated_shown never pending group member
  have removes := fun group member => removes_iff pending group member
  have present : ∀ group ∈ state.groups, 0 < keyTotal spec (rows ++ page) group.key →
      updateGroup (desiredGroups state) group ∈ (reconciledState spec lsn state).groups := by
    intro group member positive
    apply List.mem_map_of_mem
    rw [List.mem_filter, Bool.not_eq_true', Bool.eq_false_iff, ne_eq, removes group member]
    exact ⟨member, Int.ne_of_gt positive⟩
  have isOld : ∀ after ∈ (reconciledState spec lsn state).groups, ∃ group ∈ state.groups,
      after = updateGroup (desiredGroups state) group ∧ keyTotal spec (rows ++ page) group.key ≠ 0 := by
    intro after member
    obtain ⟨group, inside, rfl⟩ := List.mem_map.mp member
    obtain ⟨isGroup, stays⟩ := List.mem_filter.mp inside
    rw [Bool.not_eq_true', Bool.eq_false_iff, ne_eq, removes group isGroup] at stays
    exact ⟨group, isGroup, rfl, stays⟩
  have sameIds : (reconciledState spec lsn state).groups.map GroupRow.groupStateId =
      (state.groups.filter fun group => !removesGroup (desiredGroups state) group).map GroupRow.groupStateId := by
    rw [reconciledState, List.map_map]
    apply List.map_congr_left
    exact fun group member => (updated group (List.mem_filter.mp member).1).1
  have sameKeys : (reconciledState spec lsn state).groups.map GroupRow.key =
      (state.groups.filter fun group => !removesGroup (desiredGroups state) group).map GroupRow.key := by
    rw [reconciledState, List.map_map]
    apply List.map_congr_left
    exact fun group member => (updated group (List.mem_filter.mp member).1).2.1
  have isShown : ∀ after ∈ (reconciledState spec lsn state).groups, Shown spec (rows ++ page) after := by
    intro after member
    obtain ⟨group, isGroup, rfl, _⟩ := isOld after member
    exact (updated group isGroup).2.2.1
  exact {
    grouped := {
      ordered := by
        rw [sameIds]
        exact pending.grouped.ordered.sublist (List.filter_sublist.map _)
      below := by
        intro after member
        obtain ⟨group, isGroup, rfl, _⟩ := isOld after member
        rw [(updated group isGroup).1]
        exact pending.grouped.below group isGroup
      distinct := by
        rw [sameKeys]
        exact pending.grouped.distinct.sublist (List.filter_sublist.map _) }
    bagged := {
      unique := pending.bagged.unique
      canonical := pending.bagged.canonical
      counted := pending.bagged.counted
      positive := pending.bagged.positive
      owned := by
        intro row inside
        obtain ⟨group, member, sameId, value, isKey, isOutput⟩ := pending.bagged.owned row inside
        have there := output_le_key spec natural value
        have counted := pending.bagged.counted row inside
        have positive := pending.bagged.positive row inside
        rw [isOutput, isKey, ← counted] at there
        refine ⟨_, present group member (by omega), (updated group member).1.trans sameId, value, ?_, isOutput⟩
        rw [(updated group member).2.1]
        exact isKey
      covers := pending.bagged.covers }
    shown := isShown
    positive := by
      intro after member
      have counted := (isShown after member).counted
      obtain ⟨group, isGroup, rfl, some⟩ := isOld after member
      rw [(updated group isGroup).2.1] at counted
      omega
    covers := by
      intro key positive
      obtain ⟨group, member, rfl⟩ := pending.covers key positive
      exact ⟨_, present group member positive, (updated group member).2.1⟩
    bounded := by
      intro key
      have whole := fits page.length key
      rwa [List.take_length] at whole
    matching := by
      intro after member row inside sameId isKey
      obtain ⟨group, isGroup, rfl, _⟩ := isOld after member
      have frame := updated group isGroup
      have canonical := (isShown _ member).canonical
      rw [frame.2.2.2] at canonical ⊢
      rw [isKey] at canonical
      obtain ⟨output, isOutput, sameKey⟩ := Option.map_eq_some_iff.mp canonical
      obtain ⟨other, isOther, rfl⟩ := Option.map_eq_some_iff.mp isOutput
      obtain ⟨otherInside, otherId⟩ := List.mem_filter.mp (least_row_some _ other isOther).1
      have otherKey := pending.bagged.canonical other otherInside
      have same : other = row := List.inj_on_of_nodup_map pending.bagged.unique otherInside inside (by
        rw [of_decide_eq_true otherId, sameId, frame.1, ← otherKey, sameKey])
      rw [isOther, same]
      rfl
    touched := rfl }

omit [DecidableEq Out] in
theorem reconcile_ok (fits : Fits spec rows page) (budget : WorkBudget) (few : page.length ≤ budget.maxInputRows)
    (touched : state.touched.length ≤ page.length) : ∃ stateRows,
      reconcileRepresentatives spec budget lsn state =
        .ok (reconciledState spec lsn state, ⟨(pageEffects spec lsn state).length, stateRows⟩) ∧
      (pageEffects spec lsn state).length ≤ page.length * 2 := by
  have natural := natural_after rows page never
  have isDesired := desired_groups pending
  have length := desired_length pending
  have sound : (desiredGroups state).any (Desired.corrupt spec) = false := by
    rw [List.any_eq_false, isDesired]
    intro one inside
    obtain ⟨group, isFiltered, rfl⟩ := List.mem_map.mp inside
    have member := (List.mem_filter.mp isFiltered).1
    have whole := key_total_nonneg spec natural group.key
    have bounded := fits page.length group.key
    rw [List.take_length] at bounded
    have before := (pending.shown group member).present
    have after := representative_present spec (rows ++ page) state.groups _ pending.grouped state.bag pending.bagged group
      member natural
    have canonical := fun row => representative_canonical spec (rows ++ page) state.groups state.bag pending.bagged group row
    have sameKey : (representative state.bag group.groupStateId).any
        (fun row => decide (row.outputKey ≠ spec.canonicalKey row.outputRow)) = false := by
      cases isRow : representative state.bag group.groupStateId with
      | none => rfl
      | some row => simp [canonical row isRow]
    rw [Bool.not_eq_true, Desired.corrupt]
    simp only [Bool.or_eq_false_iff]
    refine ⟨⟨⟨⟨decide_eq_false (Int.not_lt.mpr whole), decide_eq_false (Int.not_lt.mpr bounded)⟩, ?_⟩, ?_⟩, sameKey⟩
    · rw [bne_eq_false_iff_eq, Bool.eq_iff_iff, decide_eq_true_iff]
      exact before.symm
    · rw [bne_eq_false_iff_eq, Bool.eq_iff_iff, decide_eq_true_iff]
      exact after.symm
  have restricted : restrictGroups state.bag (state.groups.filter (removesGroup (desiredGroups state))) = .ok () := by
    unfold restrictGroups
    apply if_neg
    rw [List.any_eq_true]
    rintro ⟨group, inside, referenced⟩
    obtain ⟨member, gone⟩ := List.mem_filter.mp inside
    have empty := (removes_iff pending group member).mp gone
    obtain ⟨row, isRow, sameId⟩ := List.any_eq_true.mp referenced
    obtain ⟨⟨value, isKey, isOutput⟩, positive⟩ := (owned_rows spec (rows ++ page) _ pending.grouped state.bag
      pending.bagged group member row.outputKey).mp ⟨row, isRow, of_decide_eq_true sameId, rfl⟩
    have there := output_le_key spec natural value
    rw [isOutput, isKey, empty] at there
    omega
  have two : ∀ desired : List (Desired Key Out Bytes),
      (desired.flatMap fun one => one.effects spec lsn).length ≤ desired.length * 2 := by
    intro desired
    induction desired with
    | nil => exact Nat.le_refl 0
    | cons one rest ih =>
        have here : (one.effects spec lsn).length ≤ 2 := by
          unfold Desired.effects
          split
          · cases one.group.outputKey <;> cases one.group.outputRow <;> cases one.representative <;> simp
          · exact Nat.zero_le 2
        rw [List.flatMap_cons, List.length_append, List.length_cons]
        omega
  refine ⟨((desiredGroups state).filter fun one => decide (0 < one.newMultiplicity)).length +
    (state.groups.filter (removesGroup (desiredGroups state))).length + (pageEffects spec lsn state).length +
      state.touched.length, ?_, ?_⟩
  · have status : ¬ ((desiredGroups state).length ≠ state.touched.length ∨
        (desiredGroups state).any (Desired.corrupt spec) = true) := by
      rw [sound]
      simp [length]
    have within : ¬ budget.maxInputRows < (desiredGroups state).length := by omega
    unfold reconcileRepresentatives
    simp only [if_neg status, ne_eq, not_true_eq_false, decide_false, not_refused, ok_bind,
      restricted, within]
    rfl
  · have pair := two (desiredGroups state)
    unfold pageEffects
    omega

end Effects

end Shiba.Distinct
