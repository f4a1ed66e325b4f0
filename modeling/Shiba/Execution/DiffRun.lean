import Shiba.Execution.DiffPage
import Shiba.Execution.Bigint
import Shiba.Library.Rounds

set_option autoImplicit false

namespace Shiba.Execution

open Weighted Portions Budget
open Shiba.TopN (DiffLeg)

-- The two legs over a generation or a partition: where they are, the tables, and
-- the effects that were emitted.
structure DiffLoop (Key Row : Type) where
  leg : DiffLeg := .remove
  rowId : Option Int := none
  repeats : Bool := false
  finished : Bool := false
  tables : DiffTables Key Row
  emitted : List (Row × Int) := []

def DiffLoop.after {Key Row : Type} (loop : DiffLoop Key Row) (outcome : DiffOutcome Key Row) : DiffLoop Key Row :=
  let emitted := loop.emitted ++ outcome.payload
  if outcome.complete then
    match loop.leg with
    | .remove => { leg := .add, tables := outcome.tables, emitted := emitted }
    | .add => { leg := .add, finished := true, tables := outcome.tables, emitted := emitted }
  else { leg := loop.leg, rowId := outcome.lastRowId, repeats := outcome.repeatCursor, tables := outcome.tables, emitted := emitted }

section

variable {α β : Type}

theorem sum_filter_map_le {keeps : α → Option β} {before : α → Nat} {behind : β → Nat} (items : List α)
    (lower : ∀ item ∈ items, ∀ kept, keeps item = some kept → behind kept ≤ before item) :
    ((items.filterMap keeps).map behind).sum ≤ (items.map before).sum := by
  induction items with
  | nil => exact Nat.le_refl _
  | cons item rest ih =>
      have later := ih fun other member => lower other (List.mem_cons_of_mem _ member)
      rw [List.map_cons, List.sum_cons]
      cases kept : keeps item with
      | none =>
          rw [List.filterMap_cons_none kept]
          omega
      | some after =>
          have here := lower item List.mem_cons_self after kept
          rw [List.filterMap_cons_some kept, List.map_cons, List.sum_cons]
          omega

-- One item that falls, or goes, lowers the sum.
theorem sum_filter_map_lt (keeps : α → Option β) (before : α → Nat) (behind : β → Nat) (items : List α)
    (lower : ∀ item ∈ items, ∀ kept, keeps item = some kept → behind kept ≤ before item) (one : α) (member : one ∈ items)
    (counted : 0 < before one) (falls : ∀ kept, keeps one = some kept → behind kept < before one) :
    ((items.filterMap keeps).map behind).sum < (items.map before).sum := by
  obtain ⟨earlier, later, rfl⟩ := List.append_of_mem member
  have first := sum_filter_map_le earlier fun other inside => lower other (List.mem_append_left _ inside)
  have last := sum_filter_map_le later
    fun other inside => lower other (List.mem_append_right _ (List.mem_cons_of_mem _ inside))
  rw [List.filterMap_append, List.map_append, List.sum_append, List.map_append, List.sum_append, List.map_cons, List.sum_cons]
  cases kept : keeps one with
  | none =>
      rw [List.filterMap_cons_none kept]
      omega
  | some after =>
      have here := falls after kept
      rw [List.filterMap_cons_some kept, List.map_cons, List.sum_cons]
      omega

-- Behind a row that is behind a cursor lie rows behind that cursor.
theorem predicate_forward {rowId : Option Int} {repeats again : Bool} {last identity : Int}
    (reached : cursorPredicate rowId repeats last = true) (behind : cursorPredicate (some last) again identity = true) :
    cursorPredicate rowId repeats identity = true := by
  have onward : last ≤ identity := by
    cases again with
    | true => exact of_decide_eq_true behind
    | false => exact Int.le_of_lt (of_decide_eq_true behind)
  cases rowId with
  | none => exact reached
  | some previous =>
      cases repeats with
      | true =>
          have low : previous ≤ last := of_decide_eq_true reached
          exact decide_eq_true (Int.le_trans low onward)
      | false =>
          have low : previous < last := of_decide_eq_true reached
          exact decide_eq_true (Int.lt_of_lt_of_le low onward)

end

section

variable {Key Row : Type} [DecidableEq Key] {canonical : Row → Key}

-- Every row before the cursor is settled.
def Settled (leg : DiffLeg) (rowId : Option Int) (repeats : Bool) (tables : DiffTables Key Row) : Prop :=
  ∀ row ∈ tables.iterated leg, cursorPredicate rowId repeats row.rowId = false → tables.delta leg row ≤ 0

variable (octets : Row → Nat) (leg : DiffLeg) (rowId : Option Int) (repeats : Bool) (tables : DiffTables Key Row)
  (round : DiffRound) (valid : tables.Valid canonical) (offered : round.Offered)

-- The tables behind a page.
def tablesAfter : DiffTables Key Row :=
  (mutate leg tables (differencesOf leg tables (pageRows octets leg rowId repeats tables round))).1

include valid offered

theorem page_slice_nonneg (row : DiffRow Key Row) (member : row ∈ tables.iterated leg) :
    0 ≤ weight (keyed (differencesOf leg tables (pageRows octets leg rowId repeats tables round))) row.outputKey := by
  have picked := page_picked octets leg rowId repeats tables offered
  by_cases compared : row ∈ pageRows octets leg rowId repeats tables round
  · rw [slice_compared valid picked row compared]
    split
    · exact Int.natCast_nonneg _
    · exact Int.le_refl 0
  · rw [slice_elsewhere valid picked row member compared]

-- A compared row is settled, but for a last one whose difference exceeds a weight.
theorem compared_settled (row : DiffRow Key Row) (compared : row ∈ pageRows octets leg rowId repeats tables round)
    (fits : huge (tables.delta leg row) = false) :
    tables.delta leg row - weight (keyed (differencesOf leg tables (pageRows octets leg rowId repeats tables round))) row.outputKey ≤ 0 := by
  have picked := page_picked octets leg rowId repeats tables offered
  rw [slice_compared valid picked row compared]
  by_cases differs : 0 < tables.delta leg row
  · rw [if_pos differs, slice_whole _ differs fits]
    omega
  · rw [if_neg differs]
    omega

-- A complete page leaves its whole table settled.
theorem complete_settled (settled : Settled leg rowId repeats tables)
    (complete : pageComplete octets leg rowId repeats tables round = true) (after : DiffRow Key Row)
    (member : after ∈ (tablesAfter octets leg rowId repeats tables round).iterated leg) :
    (tablesAfter octets leg rowId repeats tables round).delta leg after ≤ 0 := by
  have spec := page_rows octets leg rowId repeats tables round offered
  have picked := page_picked octets leg rowId repeats tables offered
  obtain ⟨keeps, kept, falls⟩ := iterated_after valid (picked_sliced valid picked)
  rw [tablesAfter, kept] at member
  obtain ⟨row, inside, isKept⟩ := List.mem_filterMap.mp member
  obtain ⟨_, delta⟩ := falls row inside after isKept
  rw [tablesAfter, delta]
  unfold pageComplete at complete
  rw [Bool.and_eq_true, Bool.and_eq_true, decide_eq_true_eq, decide_eq_true_eq, Bool.not_eq_true'] at complete
  obtain ⟨rest, split, ends⟩ := spec.first
  by_cases behind : cursorPredicate rowId repeats row.rowId = true
  · have waiting : row ∈ behindRows leg rowId repeats tables := List.mem_filter.mpr ⟨inside, behind⟩
    rw [split, ends.mp complete.1, List.append_nil] at waiting
    exact compared_settled octets leg rowId repeats tables round valid offered row waiting (spec.plain complete.2 row waiting)
  · have before := settled row inside (Bool.eq_false_iff.mpr behind)
    have natural := page_slice_nonneg octets leg rowId repeats tables round valid offered row inside
    omega

-- A page that is not complete has a last row; rows before the cursor on it are settled.
theorem partly_settled (settled : Settled leg rowId repeats tables) (last : DiffRow Key Row)
    (isLast : (pageRows octets leg rowId repeats tables round).getLast? = some last) :
    Settled leg (some last.rowId) ((pageRows octets leg rowId repeats tables round).any fun row => huge (tables.delta leg row))
      (tablesAfter octets leg rowId repeats tables round) := by
  intro after member passed
  have spec := page_rows octets leg rowId repeats tables round offered
  have picked := page_picked octets leg rowId repeats tables offered
  obtain ⟨keeps, kept, falls⟩ := iterated_after valid (picked_sliced valid picked)
  rw [tablesAfter, kept] at member
  obtain ⟨row, inside, isKept⟩ := List.mem_filterMap.mp member
  obtain ⟨sameId, delta⟩ := falls row inside after isKept
  rw [tablesAfter, delta]
  rw [sameId] at passed
  obtain ⟨rest, split, _⟩ := spec.first
  by_cases compared : row ∈ pageRows octets leg rowId repeats tables round
  · apply compared_settled octets leg rowId repeats tables round valid offered row compared
    cases again : (pageRows octets leg rowId repeats tables round).any fun row => huge (tables.delta leg row) with
    | false => exact spec.plain again row compared
    | true =>
        obtain ⟨earlier, final, shape, _, before⟩ := spec.revisited again
        rw [shape, List.getLast?_concat] at isLast
        obtain rfl := Option.some.inj isLast
        rw [shape] at compared
        rcases List.mem_append.mp compared with early | same
        · exact before row early
        · rw [List.mem_singleton.mp same, again] at passed
          exact absurd (decide_eq_true (Int.le_refl _)) (Bool.eq_false_iff.mp passed)
  · have natural := page_slice_nonneg octets leg rowId repeats tables round valid offered row inside
    by_cases behind : cursorPredicate rowId repeats row.rowId = true
    · have waiting : row ∈ behindRows leg rowId repeats tables := List.mem_filter.mpr ⟨inside, behind⟩
      rw [split] at waiting
      have later : row ∈ rest := (List.mem_append.mp waiting).resolve_left compared
      have order := (valid.iterated leg).rising.sublist (behind_sublist leg rowId repeats tables)
      rw [split, List.pairwise_append] at order
      have less := order.2.2 last (List.mem_of_getLast? isLast) row later
      cases again : (pageRows octets leg rowId repeats tables round).any fun row => huge (tables.delta leg row) with
      | false =>
          rw [again] at passed
          exact absurd (decide_eq_true less) (Bool.eq_false_iff.mp passed)
      | true =>
          rw [again] at passed
          exact absurd (decide_eq_true (Int.le_of_lt less)) (Bool.eq_false_iff.mp passed)
    · have before := settled row inside (Bool.eq_false_iff.mpr behind)
      omega

-- What is left of a leg: the rows behind its cursor and their differences.
omit valid offered in
def rowWork (row : DiffRow Key Row) : Nat :=
  if cursorPredicate rowId repeats row.rowId then 1 + (tables.delta leg row).toNat else 0

omit valid offered in
def legWork : Nat := ((tables.iterated leg).map (rowWork leg rowId repeats tables)).sum

theorem partly_less (last : DiffRow Key Row) (isLast : (pageRows octets leg rowId repeats tables round).getLast? = some last) :
    legWork leg (some last.rowId) ((pageRows octets leg rowId repeats tables round).any fun row => huge (tables.delta leg row))
        (tablesAfter octets leg rowId repeats tables round) <
      legWork leg rowId repeats tables := by
  have spec := page_rows octets leg rowId repeats tables round offered
  have picked := page_picked octets leg rowId repeats tables offered
  obtain ⟨keeps, kept, falls⟩ := iterated_after valid (picked_sliced valid picked)
  have compared := List.mem_of_getLast? isLast
  obtain ⟨rest, split, _⟩ := spec.first
  have reached : cursorPredicate rowId repeats last.rowId = true := by
    have waiting : last ∈ behindRows leg rowId repeats tables := by
      rw [split]
      exact List.mem_append_left _ compared
    exact (List.mem_filter.mp waiting).2
  have counted : 0 < rowWork leg rowId repeats tables last := by
    unfold rowWork
    rw [if_pos reached]
    exact Nat.lt_of_lt_of_le Nat.one_pos (Nat.le_add_right 1 _)
  unfold legWork
  rw [tablesAfter, kept]
  refine sum_filter_map_lt keeps (rowWork leg rowId repeats tables) _ _ ?_ last (picked.subset compared) counted ?_
  · intro row inside after isKept
    obtain ⟨sameId, delta⟩ := falls row inside after isKept
    have natural := page_slice_nonneg octets leg rowId repeats tables round valid offered row inside
    unfold rowWork
    rw [sameId, delta]
    split
    · rename_i behind
      rw [if_pos (predicate_forward reached behind)]
      omega
    · exact Nat.zero_le _
  · intro after isKept
    obtain ⟨sameId, delta⟩ := falls last (picked.subset compared) after isKept
    cases again : (pageRows octets leg rowId repeats tables round).any fun row => huge (tables.delta leg row) with
    | false =>
        have passed : cursorPredicate (some last.rowId) false after.rowId = false := by
          rw [sameId]
          exact decide_eq_false (Int.lt_irrefl _)
        rw [rowWork, passed, if_neg Bool.false_ne_true]
        exact counted
    | true =>
        obtain ⟨earlier, final, shape, hit, _⟩ := spec.revisited again
        rw [shape, List.getLast?_concat] at isLast
        obtain rfl := Option.some.inj isLast
        have exceeds : (bigintMax : Int) < tables.delta leg final := of_decide_eq_true hit
        have positive : 0 < tables.delta leg final := Int.lt_of_le_of_lt (Int.natCast_nonneg _) exceeds
        have slice := slice_compared valid picked final compared
        rw [if_pos positive] at slice
        have some := slice_positive _ positive
        have stays : cursorPredicate (Option.some final.rowId) true after.rowId = true := by
          rw [sameId]
          exact decide_eq_true (Int.le_refl _)
        rw [rowWork, rowWork, stays, if_pos rfl, reached, if_pos rfl, delta, slice]
        omega

end

section

variable {Key Row : Type} [DecidableEq Key] (canonical : Row → Key)

-- The effects by the keys of their rows.
def bag (emitted : List (Row × Int)) : List (Key × Int) := emitted.map fun effect => (canonical effect.1, effect.2)

omit [DecidableEq Key] in
theorem bag_append (first second : List (Row × Int)) : bag canonical (first ++ second) = bag canonical first ++ bag canonical second :=
  List.map_append

-- What holds between two pages of the legs over the initial tables.
structure Reconciling (initial : DiffTables Key Row) (loop : DiffLoop Key Row) : Prop where
  valid : loop.tables.Valid canonical
  candidate : loop.tables.candidate = initial.candidate
  positive : ∀ rowId, loop.rowId = some rowId → 0 < rowId
  resumes : loop.repeats = true → loop.rowId.isSome
  settled : Settled loop.leg loop.rowId loop.repeats loop.tables
  within : loop.leg = .add → ∀ key, copiesOf loop.tables.visible key ≤ copiesOf loop.tables.candidate key
  ended : loop.finished = true → loop.leg = .add ∧ ∀ row ∈ loop.tables.candidate, loop.tables.delta .add row ≤ 0
  conserved : ∀ key, (copiesOf loop.tables.visible key : Int) =
    copiesOf initial.visible key + weight (bag canonical loop.emitted) key
  signed : ∀ effect ∈ loop.emitted, effect.2 ≠ 0 ∧ isBigint effect.2 = true
  prefixes : ∀ count key, 0 ≤ (copiesOf initial.visible key : Int) + weight (bag canonical (loop.emitted.take count)) key

variable {canonical} {tables : DiffTables Key Row} (valid : tables.Valid canonical) {leg : DiffLeg}
  (compared : List (DiffRow Key Row)) (picked : compared.Sublist (tables.iterated leg))

include valid picked

-- The effects of a page by their keys are its slices with the sign of the leg.
theorem payload_bag (count : Nat) : bag canonical ((payloadOf leg (differencesOf leg tables compared)).take count) =
    ((differencesOf leg tables compared).take count).map fun difference =>
      (difference.1.outputKey, diffSign leg * difference.2) := by
  have sliced := picked_sliced valid picked
  unfold bag payloadOf
  rw [← List.map_take, List.map_map]
  apply List.map_congr_left
  intro difference inside
  have member := sliced.member difference (List.mem_of_mem_take inside)
  exact congrArg (fun key => (key, diffSign leg * (difference.2 : Int))) ((valid.iterated leg).imaged _ member).symm

omit valid picked in
theorem signed_weight (differences : List (DiffRow Key Row × Nat)) (key : Key) :
    weight (differences.map fun difference => (difference.1.outputKey, diffSign leg * (difference.2 : Int))) key =
      diffSign leg * weight (keyed differences) key := by
  induction differences with
  | nil =>
      rw [keyed, List.map_nil, List.map_nil, weight_nil, Int.mul_zero]
  | cons difference rest ih =>
      rw [List.map_cons, weight_cons, ih, keyed_cons, Int.mul_add]
      split
      · rfl
      · rw [Nat.cast_zero, Int.mul_zero]

-- A prefix of a page has emitted the slice of a key or nothing of it.
theorem payload_prefix (count : Nat) (key : Key) :
    weight (bag canonical ((payloadOf leg (differencesOf leg tables compared)).take count)) key = 0 ∨
      weight (bag canonical ((payloadOf leg (differencesOf leg tables compared)).take count)) key =
        diffSign leg * weight (keyed (differencesOf leg tables compared)) key := by
  have distinct := slices_distinct valid (picked_sliced valid picked)
  rw [payload_bag valid compared picked, signed_weight]
  by_cases found : ∃ difference ∈ (differencesOf leg tables compared).take count, difference.1.outputKey = key
  · right
    obtain ⟨difference, inside, rfl⟩ := found
    rw [keyed_member _ distinct (List.mem_of_mem_take inside),
      keyed_member _ (distinct.sublist (List.take_sublist _ _)) inside]
  · left
    rw [keyed_absent, Int.mul_zero]
    intro difference inside same
    exact found ⟨difference, inside, same⟩

theorem payload_whole (key : Key) :
    weight (bag canonical (payloadOf leg (differencesOf leg tables compared))) key =
      diffSign leg * weight (keyed (differencesOf leg tables compared)) key := by
  have all := payload_bag valid compared picked (differencesOf leg tables compared).length
  have length : (payloadOf leg (differencesOf leg tables compared)).length = (differencesOf leg tables compared).length :=
    List.length_map _
  rw [← length, List.take_length, length, List.take_length] at all
  rw [all, signed_weight]

omit valid picked in
theorem payload_signed (effect : Row × Int) (member : effect ∈ payloadOf leg (differencesOf leg tables compared)) :
    effect.2 ≠ 0 ∧ isBigint effect.2 = true := by
  obtain ⟨difference, inside, rfl⟩ := List.mem_map.mp member
  obtain ⟨row, differing, rfl⟩ := List.mem_map.mp inside
  have differs : 0 < tables.delta leg row := of_decide_eq_true (List.mem_filter.mp differing).2
  have some := slice_positive _ differs
  have fits := (slice_le _ differs).2
  rw [is_bigint_iff]
  cases leg with
  | remove =>
      change -1 * ((sliceOf (tables.delta .remove row) : Nat) : Int) ≠ 0 ∧ _ ≤ -1 * ((sliceOf (tables.delta .remove row) : Nat) : Int) ∧
        -1 * ((sliceOf (tables.delta .remove row) : Nat) : Int) ≤ _
      omega
  | add =>
      change 1 * ((sliceOf (tables.delta .add row) : Nat) : Int) ≠ 0 ∧ _ ≤ 1 * ((sliceOf (tables.delta .add row) : Nat) : Int) ∧
        1 * ((sliceOf (tables.delta .add row) : Nat) : Int) ≤ _
      omega

end

section

variable {Key Row : Type} [DecidableEq Key] {canonical : Row → Key} (octets : Row → Nat) (initial : DiffTables Key Row)
  (loop : DiffLoop Key Row) (round : DiffRound)

-- What a page of the loop reports.
def DiffLoop.outcome : DiffOutcome Key Row :=
  pageOutcome octets loop.leg loop.tables round (pageRows octets loop.leg loop.rowId loop.repeats loop.tables round)
    (pageComplete octets loop.leg loop.rowId loop.repeats loop.tables round)

def DiffLoop.next : DiffLoop Key Row := loop.after (loop.outcome octets round)

def DiffLoop.remaining : Nat :=
  if loop.finished then 0
  else
    1 + legWork loop.leg loop.rowId loop.repeats loop.tables +
      match loop.leg with
      | .remove => 1 + (loop.tables.candidate.map fun row => 1 + row.multiplicity).sum
      | .add => 0

-- The two parts of a step: what it emits and leaves in the tables, and where it goes on.
theorem next_shape : (loop.next octets round).tables = (loop.outcome octets round).tables ∧
    (loop.next octets round).emitted = loop.emitted ++ (loop.outcome octets round).payload := by
  unfold DiffLoop.next DiffLoop.after
  cases (loop.outcome octets round).complete with
  | true =>
      cases loop.leg with
      | remove => exact ⟨rfl, rfl⟩
      | add => exact ⟨rfl, rfl⟩
  | false => exact ⟨rfl, rfl⟩

variable (offered : round.Offered)

include offered

theorem loop_picked : (pageRows octets loop.leg loop.rowId loop.repeats loop.tables round).Sublist (loop.tables.iterated loop.leg) :=
  page_picked octets loop.leg loop.rowId loop.repeats loop.tables offered

variable {initial loop} (reconciling : Reconciling canonical initial loop)

include reconciling

theorem loop_mutated : (loop.outcome octets round).tables.Valid canonical ∧
    (loop.outcome octets round).tables.candidate = loop.tables.candidate ∧
    ∀ key, (copiesOf (loop.outcome octets round).tables.visible key : Int) =
      copiesOf loop.tables.visible key + weight (bag canonical (loop.outcome octets round).payload) key := by
  have picked := loop_picked octets loop round offered
  obtain ⟨valid, candidate, copies, _⟩ := mutated reconciling.valid (picked_sliced reconciling.valid picked)
  refine ⟨valid, candidate, ?_⟩
  intro key
  have emitted := payload_whole reconciling.valid _ picked key
  change (copiesOf (mutate _ _ _).1.visible key : Int) = _ + weight (bag canonical (payloadOf _ _)) key
  rw [copies, emitted]

-- A prefix of the effects leaves copies that are there before or behind a page.
theorem loop_prefixes (count : Nat) (key : Key) :
    0 ≤ (copiesOf initial.visible key : Int) +
      weight (bag canonical ((loop.emitted ++ (loop.outcome octets round).payload).take count)) key := by
  have picked := loop_picked octets loop round offered
  obtain ⟨_, _, copies⟩ := loop_mutated octets round offered reconciling
  have here := reconciling.conserved key
  rw [List.take_append]
  by_cases early : count ≤ loop.emitted.length
  · rw [Nat.sub_eq_zero_of_le early, List.take_zero, List.append_nil]
    exact reconciling.prefixes count key
  · rw [List.take_of_length_le (by omega), bag_append, weight_append]
    have before := Int.natCast_nonneg (copiesOf loop.tables.visible key)
    have after := Int.natCast_nonneg (copiesOf (loop.outcome octets round).tables.visible key)
    have whole := payload_whole reconciling.valid _ picked key
    have behind := copies key
    change _ = _ + weight (bag canonical (payloadOf _ _)) key at behind
    rcases payload_prefix reconciling.valid _ picked (count - loop.emitted.length) key with nothing | all
    · change 0 ≤ _ + (_ + weight (bag canonical ((payloadOf _ _).take _)) key)
      rw [nothing]
      omega
    · change 0 ≤ _ + (_ + weight (bag canonical ((payloadOf _ _).take _)) key)
      rw [all, ← whole]
      omega

-- Of a finished Remove leg no key has more copies than its candidate.
theorem removed_within (leg : loop.leg = .remove) (complete : (loop.outcome octets round).complete = true) (key : Key) :
    copiesOf (loop.outcome octets round).tables.visible key ≤ copiesOf (loop.outcome octets round).tables.candidate key := by
  obtain ⟨valid, _, _⟩ := loop_mutated octets round offered reconciling
  rcases key_cases (loop.outcome octets round).tables.visible key with ⟨row, member, rfl⟩ | absent
  · have settled := complete_settled octets loop.leg loop.rowId loop.repeats loop.tables round reconciling.valid offered
      reconciling.settled complete row
    rw [leg] at settled
    have lower : (loop.outcome octets round).tables.delta .remove row ≤ 0 := by
      have same : tablesAfter octets .remove loop.rowId loop.repeats loop.tables round = (loop.outcome octets round).tables := by
        rw [← leg]
        rfl
      rw [same] at settled
      exact settled member
    rw [copies_member valid.visible.distinct member]
    unfold DiffTables.delta at lower
    change (row.multiplicity : Int) - copiesOf (loop.outcome octets round).tables.candidate row.outputKey ≤ 0 at lower
    omega
  · rw [copies_absent _ key absent]
    exact Nat.zero_le _

theorem added_within (leg : loop.leg = .add) (key : Key) :
    copiesOf (loop.outcome octets round).tables.visible key ≤ copiesOf (loop.outcome octets round).tables.candidate key := by
  have picked := loop_picked octets loop round offered
  have sliced := picked_sliced reconciling.valid picked
  obtain ⟨_, candidate, copies⟩ := loop_mutated octets round offered reconciling
  have before := reconciling.within leg key
  have behind := copies key
  have whole := payload_whole reconciling.valid _ picked key
  change _ = _ + weight (bag canonical (payloadOf _ _)) key at behind
  rw [whole, leg] at behind
  change _ = _ + 1 * _ at behind
  rw [candidate]
  rw [leg] at sliced
  by_cases found : ∃ difference ∈ differencesOf .add loop.tables
      (pageRows octets .add loop.rowId loop.repeats loop.tables round), difference.1.outputKey = key
  · obtain ⟨difference, inside, rfl⟩ := found
    rw [← leg] at inside
    have all := keyed_member _ (slices_distinct reconciling.valid (picked_sliced reconciling.valid picked)) inside
    rw [leg] at all inside
    have fits := sliced.within difference inside
    have copiesHere := copies_member reconciling.valid.candidate.distinct (sliced.member difference inside)
    unfold DiffTables.delta at fits
    change (difference.2 : Int) ≤ (difference.1.multiplicity : Int) - copiesOf loop.tables.visible difference.1.outputKey at fits
    omega
  · have none := keyed_absent (differencesOf .add loop.tables (pageRows octets .add loop.rowId loop.repeats loop.tables round)) key
      (fun difference inside same => found ⟨difference, inside, same⟩)
    omega

theorem next_reconciling : Reconciling canonical initial (loop.next octets round) := by
  have picked := loop_picked octets loop round offered
  obtain ⟨tables, emitted⟩ := next_shape octets loop round
  obtain ⟨valid, candidate, copies⟩ := loop_mutated octets round offered reconciling
  have conserved (key : Key) : (copiesOf (loop.outcome octets round).tables.visible key : Int) =
      copiesOf initial.visible key + weight (bag canonical (loop.emitted ++ (loop.outcome octets round).payload)) key := by
    rw [bag_append, weight_append, copies key, reconciling.conserved key, Int.add_assoc]
  have signed (effect : Row × Int) (member : effect ∈ loop.emitted ++ (loop.outcome octets round).payload) :
      effect.2 ≠ 0 ∧ isBigint effect.2 = true := by
    rcases List.mem_append.mp member with old | new
    · exact reconciling.signed effect old
    · exact payload_signed _ effect new
  have prefixes := loop_prefixes octets round offered reconciling
  unfold DiffLoop.next DiffLoop.after
  cases complete : (loop.outcome octets round).complete with
  | true =>
      cases leg : loop.leg with
      | remove =>
          refine ⟨valid, candidate.trans reconciling.candidate, ?_, ?_, ?_, ?_, ?_, conserved, signed, prefixes⟩
          · intro rowId wrong
            cases wrong
          · intro wrong
            cases wrong
          · intro row _ wrong
            cases wrong
          · intro _
            exact removed_within octets round offered reconciling leg complete
          · intro wrong
            cases wrong
      | add =>
          refine ⟨valid, candidate.trans reconciling.candidate, ?_, ?_, ?_, ?_, ?_, conserved, signed, prefixes⟩
          · intro rowId wrong
            cases wrong
          · intro wrong
            cases wrong
          · intro row _ wrong
            cases wrong
          · intro _
            exact added_within octets round offered reconciling leg
          · intro _
            refine ⟨rfl, ?_⟩
            intro row member
            have settled := complete_settled octets loop.leg loop.rowId loop.repeats loop.tables round reconciling.valid offered
              reconciling.settled complete row
            have same : tablesAfter octets loop.leg loop.rowId loop.repeats loop.tables round = (loop.outcome octets round).tables := rfl
            rw [same, leg] at settled
            exact settled member
  | false =>
      have present := partly_present octets loop.leg loop.rowId loop.repeats loop.tables round offered complete
      have isLast := List.getLast?_eq_some_getLast present
      have rowed : (loop.outcome octets round).lastRowId =
          some ((pageRows octets loop.leg loop.rowId loop.repeats loop.tables round).getLast present).rowId :=
        congrArg (Option.map DiffRow.rowId) isLast
      refine ⟨valid, candidate.trans reconciling.candidate, ?_, ?_, ?_, ?_, ?_, conserved, signed, prefixes⟩
      · intro rowId same
        change (loop.outcome octets round).lastRowId = some rowId at same
        rw [rowed] at same
        obtain rfl := Option.some.inj same
        exact (reconciling.valid.iterated loop.leg).positive _ (picked.subset (List.getLast_mem present))
      · intro _
        change (loop.outcome octets round).lastRowId.isSome = true
        rw [rowed]
        rfl
      · change Settled loop.leg (loop.outcome octets round).lastRowId _ _
        rw [rowed]
        exact partly_settled octets loop.leg loop.rowId loop.repeats loop.tables round reconciling.valid offered reconciling.settled _
          isLast
      · intro leg
        exact added_within octets round offered reconciling leg
      · intro wrong
        cases wrong

theorem next_less (running : loop.finished = false) : (loop.next octets round).remaining < loop.remaining := by
  obtain ⟨_, candidate, _⟩ := loop_mutated octets round offered reconciling
  unfold DiffLoop.next DiffLoop.after
  cases complete : (loop.outcome octets round).complete with
  | true =>
      cases leg : loop.leg with
      | remove =>
          have fewer : legWork .add none false (loop.outcome octets round).tables ≤
              (loop.tables.candidate.map fun row => 1 + row.multiplicity).sum := by
            unfold legWork
            change ((loop.outcome octets round).tables.candidate.map _).sum ≤ _
            rw [candidate]
            apply List.sum_le_sum
            intro row _
            have below := delta_le (loop.outcome octets round).tables .add row
            change 1 + ((loop.outcome octets round).tables.delta .add row).toNat ≤ 1 + row.multiplicity
            omega
          change 1 + legWork .add none false (loop.outcome octets round).tables + 0 < _
          rw [DiffLoop.remaining, running, if_neg Bool.false_ne_true, leg]
          simp only
          omega
      | add =>
          change 0 < _
          rw [DiffLoop.remaining, running, if_neg Bool.false_ne_true, Nat.add_assoc]
          exact Nat.add_pos_left Nat.one_pos _
  | false =>
      have present := partly_present octets loop.leg loop.rowId loop.repeats loop.tables round offered complete
      have isLast := List.getLast?_eq_some_getLast present
      have rowed : (loop.outcome octets round).lastRowId =
          some ((pageRows octets loop.leg loop.rowId loop.repeats loop.tables round).getLast present).rowId :=
        congrArg (Option.map DiffRow.rowId) isLast
      have less := partly_less octets loop.leg loop.rowId loop.repeats loop.tables round reconciling.valid offered _ isLast
      rw [← rowed] at less
      change legWork loop.leg (loop.outcome octets round).lastRowId (loop.outcome octets round).repeatCursor
        (loop.outcome octets round).tables < _ at less
      rw [DiffLoop.remaining, DiffLoop.remaining, running, if_neg Bool.false_ne_true]
      simp only [Bool.false_eq_true, if_false]
      rw [candidate]
      exact Nat.add_lt_add_right (Nat.add_lt_add_left less 1) _

-- At the end the visible rows are the candidates.
omit offered in
theorem finished_equal (finished : loop.finished = true) (key : Key) :
    copiesOf loop.tables.visible key = copiesOf initial.candidate key := by
  obtain ⟨leg, settled⟩ := reconciling.ended finished
  have below := reconciling.within leg key
  rw [← reconciling.candidate]
  rcases key_cases loop.tables.candidate key with ⟨row, member, rfl⟩ | absent
  · have reached := settled row member
    rw [copies_member reconciling.valid.candidate.distinct member] at below ⊢
    unfold DiffTables.delta at reached
    change (row.multiplicity : Int) - copiesOf loop.tables.visible row.outputKey ≤ 0 at reached
    omega
  · rw [copies_absent _ key absent] at below ⊢
    omega

omit reconciling offered in
theorem start_reconciling (valid : initial.Valid canonical) : Reconciling canonical initial { tables := initial } := by
  refine ⟨valid, rfl, ?_, ?_, ?_, ?_, ?_, ?_, ?_, ?_⟩
  · intro rowId wrong
    cases wrong
  · intro wrong
    cases wrong
  · intro row _ wrong
    cases wrong
  · intro wrong
    cases wrong
  · intro wrong
    cases wrong
  · intro key
    exact (Int.add_zero _).symm
  · intro effect wrong
    cases wrong
  · intro count key
    rw [List.take_nil]
    exact Int.add_nonneg (Int.natCast_nonneg _) (Int.le_refl 0)

end

section Runs

variable {Key Row : Type} [DecidableEq Key] (canonical : Row → Key) (octets : Row → Nat) (initial : DiffTables Key Row)
  (inputs : Nat → DiffRound)

-- The pages of both legs, one a round.
def diffPages (count : Nat) : Except Fault (DiffLoop Key Row) :=
  Rounds.rounds (fun loop round => .ok (loop.next octets round)) DiffLoop.finished inputs count 0 { tables := initial }

-- What may be said of the effects at any time.
structure SafeEffects (emitted : List (Row × Int)) : Prop where
  signed : ∀ effect ∈ emitted, effect.2 ≠ 0 ∧ isBigint effect.2 = true
  prefixes : ∀ count key, 0 ≤ (copiesOf initial.visible key : Int) + weight (bag canonical (emitted.take count)) key

-- What the legs are for: the visible rows become the candidates, and the effects
-- say what changed.
structure Reconciled (tables : DiffTables Key Row) (emitted : List (Row × Int)) : Prop where
  candidate : tables.candidate = initial.candidate
  equal : ∀ key, copiesOf tables.visible key = copiesOf tables.candidate key
  summed : ∀ key, weight (bag canonical emitted) key = (copiesOf initial.candidate key : Int) - copiesOf initial.visible key

variable {canonical} (valid : initial.Valid canonical) (offered : ∀ index, (inputs index).Offered)

include valid offered

theorem pages_reconcile : ∃ count loop, diffPages octets initial inputs count = .ok loop ∧ loop.finished = true ∧
    Reconciling canonical initial loop :=
  have ⟨count, loop, ran, reconciling, finished⟩ := Rounds.rounds_end
    (fun (loop : DiffLoop Key Row) round => (.ok (loop.next octets round) : Except Fault _)) DiffLoop.finished inputs
    (Reconciling canonical initial) DiffRound.Offered
    (fun _ round start _ within => ⟨_, rfl, next_reconciling octets round within start⟩) offered DiffLoop.remaining
    (fun _ round _ start running within stepped => Except.ok.inj stepped ▸ next_less octets round within start running)
    0 { tables := initial } (start_reconciling valid)
  ⟨count, loop, ran, finished, reconciling⟩

omit valid offered in
theorem reconciled_of_finished (loop : DiffLoop Key Row) (reconciling : Reconciling canonical initial loop)
    (finished : loop.finished = true) : Reconciled canonical initial loop.tables loop.emitted := by
  have equal := finished_equal reconciling finished
  refine ⟨reconciling.candidate, ?_, ?_⟩
  · intro key
    rw [equal key, reconciling.candidate]
  · intro key
    have all := reconciling.conserved key
    rw [equal key] at all
    omega

end Runs

end Shiba.Execution
