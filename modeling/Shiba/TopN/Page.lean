import Shiba.TopN.Ranked
import Shiba.Library.Portions

set_option autoImplicit false

namespace Shiba.TopN

open Shiba.Execution Budget Fetch Portions Lexicographic

section Candidates

variable {Out : Type} [DecidableEq Out]

-- A work table of multiplicities, as its constraints keep it.
structure Counted (table : List (Out × Nat)) : Prop where
  keys : (table.map Prod.fst).Nodup
  positive : ∀ stored ∈ table, 0 < stored.2

theorem upsert_raised (table : List (Out × Nat)) (item : Out × Nat) (keys : (table.map Prod.fst).Nodup)
    (present : item.1 ∈ table.map Prod.fst) :
    (expand (table.map fun stored => if stored.1 = item.1 then (stored.1, stored.2 + item.2) else stored)).Perm
      (expand table ++ List.replicate item.2 item.1) := by
  induction table with
  | nil => cases present
  | cons stored rest ih =>
      rw [List.map_cons, List.nodup_cons] at keys
      rw [List.map_cons, expand_cons, expand_cons]
      by_cases same : stored.1 = item.1
      · have others : (rest.map fun stored => if stored.1 = item.1 then (stored.1, stored.2 + item.2) else stored) = rest := by
          conv => rhs; rw [← List.map_id' rest]
          apply List.map_congr_left
          intro other member
          apply if_neg
          intro again
          apply keys.1
          rw [same, ← again]
          exact List.mem_map_of_mem member
        rw [if_pos same, others, ← same, ← List.replicate_append_replicate, List.append_assoc, List.append_assoc]
        exact List.Perm.append_left _ List.perm_append_comm
      · rw [if_neg same, List.append_assoc]
        apply List.Perm.append_left
        apply ih keys.2
        rcases List.mem_cons.mp present with wrong | later
        · exact absurd wrong.symm same
        · exact later

theorem upsert_counted (table : List (Out × Nat)) (item : Out × Nat) (counted : Counted table) (some : 0 < item.2) :
    Counted (upsert table item) ∧ (expand (upsert table item)).Perm (expand table ++ List.replicate item.2 item.1) := by
  unfold upsert
  by_cases present : item.1 ∈ table.map Prod.fst
  · have known : (table.any fun stored => decide (stored.1 = item.1)) = true := by
      obtain ⟨stored, member, same⟩ := List.mem_map.mp present
      exact List.any_eq_true.mpr ⟨stored, member, decide_eq_true same⟩
    rw [if_pos known]
    refine ⟨⟨?_, ?_⟩, upsert_raised table item counted.keys present⟩
    · have kept : (table.map fun stored => if stored.1 = item.1 then (stored.1, stored.2 + item.2) else stored).map Prod.fst =
          table.map Prod.fst := by
        rw [List.map_map]
        apply List.map_congr_left
        intro stored _
        change (if stored.1 = item.1 then (stored.1, stored.2 + item.2) else stored).1 = stored.1
        split <;> rfl
      rw [kept]
      exact counted.keys
    · intro stored member
      obtain ⟨before, old, rfl⟩ := List.mem_map.mp member
      have positive := counted.positive before old
      split
      · exact Nat.add_pos_left positive _
      · exact positive
  · have absent : ¬ (table.any fun stored => decide (stored.1 = item.1)) = true := by
      intro known
      obtain ⟨stored, member, same⟩ := List.any_eq_true.mp known
      apply present
      rw [← of_decide_eq_true same]
      exact List.mem_map_of_mem member
    rw [if_neg absent]
    refine ⟨⟨?_, ?_⟩, ?_⟩
    · rw [List.map_append, List.map_singleton, List.nodup_append]
      refine ⟨counted.keys, List.nodup_singleton _, ?_⟩
      intro key old other new same
      rw [List.mem_singleton] at new
      rw [← new, ← same] at present
      exact present old
    · intro stored member
      rcases List.mem_append.mp member with old | new
      · exact counted.positive stored old
      · rw [List.mem_singleton.mp new]
        exact some
    · unfold expand
      rw [List.flatMap_append, List.flatMap_singleton]

theorem upserts_counted (items table : List (Out × Nat)) (counted : Counted table) (some : ∀ item ∈ items, 0 < item.2) :
    Counted (items.foldl upsert table) ∧ (expand (items.foldl upsert table)).Perm (expand table ++ expand items) := by
  induction items generalizing table with
  | nil =>
      refine ⟨counted, ?_⟩
      rw [show expand ([] : List (Out × Nat)) = [] from rfl, List.append_nil]
      rfl
  | cons item rest ih =>
      obtain ⟨kept, raised⟩ := upsert_counted table item counted (some item List.mem_cons_self)
      obtain ⟨whole, all⟩ := ih (upsert table item) kept (fun other member => some other (List.mem_cons_of_mem _ member))
      refine ⟨whole, all.trans ?_⟩
      rw [expand_cons, ← List.append_assoc]
      exact raised.append_right _

end Candidates

section

variable {Row Out Value : Type} (expressions : TopNExpressions Row Out Value) (entries : List (TopNEntry Row))

theorem selected_expand (withTies : Bool) (boundary : Option (TieBoundary Row)) (rows : List (PageRow Row)) :
    expand (selectedRows expressions withTies boundary rows) =
      (expand (rows.map fun row => (row.toTopNEntry, takeWeight expressions withTies boundary row))).map fun entry =>
        expressions.output entry.row := by
  induction rows with
  | nil => rfl
  | cons row rest ih =>
      rw [List.map_cons, expand_cons, List.map_append, List.map_replicate, ← ih]
      unfold selectedRows
      rw [List.filter_cons]
      by_cases some : 0 < takeWeight expressions withTies boundary row
      · rw [if_pos (decide_eq_true some), List.map_cons, expand_cons]
      · rw [if_neg (by rw [decide_eq_false some]; exact Bool.false_ne_true), Nat.eq_zero_of_not_pos some]
        rfl

-- The rows of the state in the order of the query.
def ranked : List (TopNEntry Row) :=
  orderBy TopNEntry.entryId expressions.keys (entries.filter fun input => decide (0 < input.multiplicity))

variable {entries}

theorem ranked_member (entry : TopNEntry Row) : entry ∈ ranked expressions entries ↔ entry ∈ entries ∧ 0 < entry.multiplicity := by
  rw [ranked, orderBy, (sorted_perm _).mem_iff, List.mem_filter, decide_eq_true_eq]

variable (distinct : (entries.map TopNEntry.entryId).Nodup)

theorem boundary_joined {entry : TopNEntry Row} (member : entry ∈ entries) (ids : (entries.map TopNEntry.entryId).Nodup)
    (ordinal : Nat) : tieBoundary entries (some (entry.entryId, ordinal)) = some ⟨entry, ordinal⟩ := by
  change (entries.find? fun other => decide (other.entryId = entry.entryId)).map (TieBoundary.mk · ordinal) = _
  cases found : entries.find? fun other => decide (other.entryId = entry.entryId) with
  | none =>
      have absent := List.find?_eq_none.mp found entry member
      rw [decide_eq_true rfl] at absent
      exact absurd rfl absent
  | some other =>
      have same : other.entryId = entry.entryId := by simpa using List.find?_some found
      rw [List.inj_on_of_nodup_map ids (List.mem_of_find?_eq_some found) member same]
      rfl

include distinct

theorem ids_apart : entries.Pairwise fun left right => tied (orderBefore TopNEntry.entryId expressions.keys) left right = false := by
  have apart := List.pairwise_map.mp distinct
  refine apart.imp ?_
  intro left right ne
  rw [← Bool.not_eq_true]
  intro same
  exact ne (keys_equal_tied expressions.keys same)

theorem ranked_strict :
    (ranked expressions entries).Pairwise fun left right => orderBefore TopNEntry.entryId expressions.keys left right = true :=
  sorted_strict (order_weak _ _) ((ids_apart expressions distinct).filter _)

theorem cursor_rows (boundary : TopNEntry Row) (member : boundary ∈ entries) (input : TopNEntry Row) :
    afterCursor expressions entries (some boundary.entryId) input =
      orderBefore TopNEntry.entryId expressions.keys boundary input := by
  have only : (entries.filter fun other => decide (other.entryId = boundary.entryId)).any (fun other =>
      keysetAfter TopNEntry.entryId expressions.keys other input) = keysetAfter TopNEntry.entryId expressions.keys boundary input := by
    rw [Bool.eq_iff_iff, List.any_eq_true]
    constructor
    · intro found
      obtain ⟨other, listed, after⟩ := found
      obtain ⟨inside, same⟩ := List.mem_filter.mp listed
      rw [← List.inj_on_of_nodup_map distinct inside member (of_decide_eq_true same)]
      exact after
    · intro after
      exact ⟨boundary, List.mem_filter.mpr ⟨member, decide_eq_true rfl⟩, after⟩
  rw [afterCursor, only, keyset_after_order]

-- The rows after the cursor of a page are those that are not read yet.
theorem source_rest (read maxRows : Nat) :
    selectionSource expressions entries (((ranked expressions entries).take read).getLast?.map TopNEntry.entryId) maxRows =
      ((ranked expressions entries).drop read).take maxRows := by
  unfold selectionSource
  congr 1
  cases last : ((ranked expressions entries).take read).getLast? with
  | none =>
      have nothing := List.getLast?_eq_none_iff.mp last
      have same : (ranked expressions entries).drop read = ranked expressions entries := by
        conv => rhs; rw [← List.take_append_drop read (ranked expressions entries), nothing]
        rw [List.nil_append]
      rw [same, ranked]
      simp only [Option.map_none, afterCursor, Bool.and_true]
  | some boundary =>
      obtain ⟨earlier, split⟩ := List.getLast?_eq_some_iff.mp last
      have whole : ranked expressions entries = earlier ++ boundary :: (ranked expressions entries).drop read := by
        conv => lhs; rw [← List.take_append_drop read (ranked expressions entries), split]
        rw [List.append_assoc]
        rfl
      have inside : boundary ∈ ranked expressions entries := by
        rw [whole]
        exact List.mem_append_right _ List.mem_cons_self
      have member := ((ranked_member expressions boundary).mp inside).1
      have strict := ranked_strict expressions distinct
      rw [whole] at strict
      have rest := filter_after (order_weak TopNEntry.entryId expressions.keys) strict
      rw [← whole] at rest
      simp only [Option.map_some, cursor_rows expressions distinct boundary member]
      have after : (entries.filter fun input =>
            decide (0 < input.multiplicity) && orderBefore TopNEntry.entryId expressions.keys boundary input) =
          (entries.filter fun input => decide (0 < input.multiplicity)).filter
            (orderBefore TopNEntry.entryId expressions.keys boundary) := by
        rw [List.filter_filter]
        congr 1
        funext input
        exact Bool.and_comm _ _
      rw [after, orderBy, sorted_filter (order_weak _ _) _ ((ids_apart expressions distinct).filter _)]
      exact rest

-- The set statement of one page does what a scan of its rows does.
theorem page_selected {withTies : Bool} {page : List (TopNEntry Row)} (inside : ∀ entry ∈ page, entry ∈ entries)
    {held : Option (TopNEntry Row)} (stored : ∀ boundary, held = some boundary → boundary ∈ entries)
    (plain : withTies = false → held = none) {progress : SelectionProgress}
    (marked : progress.tieBoundaryRowId = held.map TopNEntry.entryId) {rows : List (PageRow Row)}
    (cut : rows = limited progress.offsetRemaining progress.limitRemaining page) {choice : Option (Int × Nat)}
    (chosen : choice = boundaryChoice withTies progress rows) {boundary : Option (TieBoundary Row)}
    (joined : boundary = tieBoundary entries choice) {final : Scan (TopNEntry Row)}
    (scan : final = scanned TopNEntry.multiplicity withTies ⟨progress.offsetRemaining, progress.limitRemaining, held⟩ page) :
    (rows.map fun row => (row.toTopNEntry, takeWeight expressions withTies boundary row)) =
        taken TopNEntry.multiplicity (keysEqual expressions.keys) withTies
          ⟨progress.offsetRemaining, progress.limitRemaining, held⟩ page ∧
      choice.map Prod.fst = final.boundary.map TopNEntry.entryId ∧
      ∀ last, final.boundary = some last → ∃ later,
        ((held = some last ∧ page = later) ∨ ∃ earlier, page = earlier ++ last :: later) ∧
        crossedTieBoundary expressions boundary rows = later.any fun entry => !keysEqual expressions.keys entry last := by
  rw [limited_rows] at cut
  cases held with
  | some persisted =>
      have ties : withTies = true := by
        cases withTies with
        | true => rfl
        | false => cases plain rfl
      have choice_is : choice = some (persisted.entryId, 0) := by
        rw [chosen, boundaryChoice, marked]
        rfl
      have boundary_is : boundary = some ⟨persisted, 0⟩ := by
        rw [joined, choice_is]
        exact boundary_joined (stored persisted rfl) distinct 0
      have closed : final.boundary = some persisted := by
        rw [scan]
        exact scanned_closed _ _ _ _ persisted rfl
      refine ⟨?_, ?_, ?_⟩
      · have weights := behind_taken expressions withTies progress.offsetRemaining progress.limitRemaining progress.limitRemaining
          page 0 0 0 persisted
        rw [Nat.sub_zero, ← cut] at weights
        rw [← weights, boundary_is, ties]
        rfl
      · rw [choice_is, closed]
        rfl
      · intro last same
        rw [closed] at same
        obtain rfl := Option.some.inj same
        refine ⟨page, .inl ⟨rfl, rfl⟩, ?_⟩
        rw [← behind_crossed expressions progress.offsetRemaining progress.limitRemaining page 0 0 0 0 persisted (Nat.le_refl 0),
          ← cut, boundary_is]
        rfl
  | none =>
      have choice_is : choice = (newBoundary withTies progress.limitRemaining rows).map fun row => (row.entryId, row.ordinal) := by
        rw [chosen, boundaryChoice, marked]
        rfl
      cases new : newBoundary withTies progress.limitRemaining rows with
      | none =>
          rw [new] at choice_is
          have boundary_is : boundary = none := by
            rw [joined, choice_is]
            rfl
          rw [cut] at new
          obtain ⟨weights, open_⟩ := base_taken expressions page 0 0 0 new
          rw [Nat.sub_zero, Nat.sub_zero] at weights open_
          have still : final.boundary = none := by rw [scan, open_]
          refine ⟨?_, ?_, ?_⟩
          · rw [← weights, ← cut, boundary_is]
            rfl
          · rw [choice_is, still]
            rfl
          · intro last same
            rw [still] at same
            cases same
      | some found =>
          rw [new] at choice_is
          have ties : withTies = true := by
            have held := List.find?_some new
            simp only [Bool.and_eq_true] at held
            exact held.1.1.1.1
          have listed : found.toTopNEntry ∈ page := by
            rw [← rows_entries progress.offsetRemaining progress.limitRemaining page 0 0 0, ← cut]
            exact List.mem_map_of_mem (List.mem_of_find?_eq_some new)
          have boundary_is : boundary = some ⟨found.toTopNEntry, found.ordinal⟩ := by
            rw [joined, choice_is]
            exact boundary_joined (inside _ listed) distinct found.ordinal
          rw [cut, ties] at new
          obtain ⟨_, weights, closed, earlier, later, split, crossed⟩ := found_taken expressions page 0 0 0 new
          rw [Nat.sub_zero, Nat.sub_zero] at weights closed
          have ends : final.boundary = some found.toTopNEntry := by rw [scan, ties, closed]
          refine ⟨?_, ?_, ?_⟩
          · rw [ties, ← weights, ← cut, boundary_is]
            rfl
          · rw [choice_is, ends]
            rfl
          · intro last same
            rw [ends] at same
            obtain rfl := Option.some.inj same
            refine ⟨later, .inr ⟨earlier, split⟩, ?_⟩
            rw [← crossed, ← cut, boundary_is]
            rfl

omit distinct in
-- Some row behind the boundary does not tie exactly when the last row does not.
theorem crossed_last (boundary : TopNEntry Row) (page later : List (TopNEntry Row))
    (strict : page.Pairwise fun left right => orderBefore TopNEntry.entryId expressions.keys left right = true)
    (behind : (page = later ∧ ∀ entry ∈ page, orderBefore TopNEntry.entryId expressions.keys boundary entry = true) ∨
      ∃ earlier, page = earlier ++ boundary :: later) :
    (later.any fun entry => !keysEqual expressions.keys entry boundary) = true ↔
      ∃ last, page.getLast? = some last ∧ keysEqual expressions.keys last boundary = false := by
  have facts : (∀ entry ∈ later, orderBefore TopNEntry.entryId expressions.keys boundary entry = true) ∧
      later.Pairwise (fun left right => orderBefore TopNEntry.entryId expressions.keys left right = true) ∧
      (later ≠ [] → page.getLast? = later.getLast?) ∧ (later = [] → ∀ last, page.getLast? = some last → last = boundary) := by
    rcases behind with ⟨rfl, ahead⟩ | ⟨earlier, rfl⟩
    · refine ⟨ahead, strict, fun _ => rfl, ?_⟩
      intro nothing last same
      rw [nothing] at same
      cases same
    · rw [List.pairwise_append, List.pairwise_cons] at strict
      refine ⟨strict.2.1.1, strict.2.1.2, ?_, ?_⟩
      · intro some
        rw [List.getLast?_append_of_ne_nil _ (List.cons_ne_nil _ _), List.getLast?_cons_of_ne_nil some]
      · intro nothing last same
        rw [nothing, List.getLast?_concat] at same
        exact (Option.some.inj same).symm
  obtain ⟨ahead, ordered, ends, alone⟩ := facts
  rw [List.any_eq_true]
  constructor
  · intro crossed
    obtain ⟨entry, member, apart⟩ := crossed
    have some := List.ne_nil_of_mem member
    refine ⟨later.getLast some, ?_, ?_⟩
    · rw [ends some, List.getLast?_eq_some_getLast some]
    · rw [← Bool.not_eq_true]
      intro same
      have tied : keysEqual expressions.keys entry boundary = true := by
        by_cases final : entry = later.getLast some
        · rw [final]
          exact same
        · refine keys_equal_between expressions.keys (ahead entry member) ?_ same
          rw [← List.dropLast_append_getLast some, List.pairwise_append] at ordered
          rw [← List.dropLast_append_getLast some] at member
          rcases List.mem_append.mp member with early | wrong
          · exact ordered.2.2 entry early _ (List.mem_singleton.mpr rfl)
          · exact absurd (List.mem_singleton.mp wrong) final
      rw [tied] at apart
      cases apart
  · intro found
    obtain ⟨last, same, apart⟩ := found
    by_cases nothing : later = []
    · rw [alone nothing last same, keys_equal_self] at apart
      cases apart
    · rw [ends nothing] at same
      exact ⟨last, List.mem_of_getLast? same, by rw [apart]; rfl⟩

end

end Shiba.TopN
