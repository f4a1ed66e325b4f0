import Mathlib.Tactic

set_option autoImplicit false

namespace Fetch

universe u

variable {α : Type u} (count : α → Nat) (tied : α → α → Bool) (withTies : Bool)

-- Every item as often as it is there.
def copies (items : List α) : List α := items.flatMap fun item => List.replicate (count item) item

-- FETCH FIRST … ROWS WITH TIES of ordered items.
def withTiesOf (limit : Nat) (rows : List α) : List α :=
  match (rows.take limit).getLast? with
  | some last => rows.take limit ++ (rows.drop limit).takeWhile fun item => tied item last
  | none => rows.take limit

-- OFFSET … FETCH FIRST … ROWS ONLY, or WITH TIES.
def fetchFirst (offset limit : Nat) (items : List α) : List α :=
  let rest := (copies count items).drop offset
  if withTies then withTiesOf tied limit rest else rest.take limit

-- Items that tie with an earlier one stand right behind it.
def Together : List α → Prop
  | [] => True
  | boundary :: rest =>
      (rest.Pairwise fun first later => tied later boundary = true → tied first boundary = true) ∧ Together rest

-- Progress through the items: what is still skipped, what is still taken, and
-- the item that took the last of it, where ties with it are taken too.
structure Scan (α : Type u) where
  offset : Nat
  limit : Nat
  boundary : Option α := none

namespace Scan

variable (scan : Scan α) (item : α)

def available : Nat := count item - scan.offset

def closes : Bool := withTies && decide (0 < scan.limit) && decide (scan.limit ≤ scan.available count item)

def take : Nat :=
  match scan.boundary with
  | some boundary => if tied item boundary then scan.available count item else 0
  | none => if scan.closes count withTies item then scan.available count item else min (scan.available count item) scan.limit

def next : Scan α where
  offset := scan.offset - count item
  limit := scan.limit - scan.available count item
  boundary :=
    match scan.boundary with
    | some boundary => some boundary
    | none => if scan.closes count withTies item then some item else none

end Scan

def scanned (scan : Scan α) (items : List α) : Scan α := items.foldl (Scan.next count withTies) scan

-- What the scan takes of each item.
def taken : Scan α → List α → List (α × Nat)
  | _, [] => []
  | scan, item :: rest => (item, scan.take count tied withTies item) :: taken (scan.next count withTies item) rest

def expand (items : List (α × Nat)) : List α := items.flatMap fun item => List.replicate item.2 item.1

theorem copies_cons (item : α) (rest : List α) : copies count (item :: rest) = List.replicate (count item) item ++ copies count rest := rfl

section

variable (scan : Scan α) (first second items : List α)

theorem copies_append : copies count (first ++ second) = copies count first ++ copies count second :=
  List.flatMap_append

theorem copies_length : (copies count items).length = (items.map count).sum := by
  induction items with
  | nil => rfl
  | cons item rest ih => rw [copies_cons, List.length_append, List.length_replicate, ih, List.map_cons, List.sum_cons]

theorem copies_mem {items : List α} {item : α} (member : item ∈ copies count items) : item ∈ items := by
  obtain ⟨source, listed, copied⟩ := List.mem_flatMap.mp member
  rw [(List.mem_replicate.mp copied).2]
  exact listed

theorem copies_perm (same : first.Perm second) : (copies count first).Perm (copies count second) :=
  same.flatMap_right _

theorem copies_pairwise (relation : α → α → Prop) (items : List α) (itself : ∀ item, relation item item)
    (ordered : items.Pairwise relation) : (copies count items).Pairwise relation := by
  induction ordered with
  | nil => exact List.Pairwise.nil
  | cons before _ ih =>
      rw [copies_cons, List.pairwise_append]
      refine ⟨List.pairwise_replicate.mpr (.inr (itself _)), ih, ?_⟩
      intro first one later other
      rw [(List.mem_replicate.mp one).2]
      exact before later (copies_mem count other)

theorem expand_cons (item : α × Nat) (rest : List (α × Nat)) : expand (item :: rest) = List.replicate item.2 item.1 ++ expand rest := rfl

theorem expand_append (first second : List (α × Nat)) : expand (first ++ second) = expand first ++ expand second := List.flatMap_append

theorem taken_append :
    taken count tied withTies scan (first ++ second) =
      taken count tied withTies scan first ++ taken count tied withTies (scanned count withTies scan first) second := by
  induction first generalizing scan with
  | nil => rfl
  | cons item rest ih =>
      rw [List.cons_append, taken, taken, ih, List.cons_append]
      rfl

theorem scanned_append :
    scanned count withTies scan (first ++ second) = scanned count withTies (scanned count withTies scan first) second :=
  List.foldl_append

-- What OFFSET and LIMIT leave of the first item and of the rest.
theorem drop_copies (offset : Nat) (item : α) (rest : List α) :
    (copies count (item :: rest)).drop offset =
      List.replicate (count item - offset) item ++ (copies count rest).drop (offset - count item) := by
  rw [copies_cons, List.drop_append, List.drop_replicate, List.length_replicate]

-- The counters only depend on how many copies were scanned.
theorem scanned_counters :
    (scanned count withTies scan items).offset = scan.offset - (copies count items).length ∧
      (scanned count withTies scan items).limit = scan.limit - ((copies count items).length - scan.offset) := by
  induction items generalizing scan with
  | nil =>
      refine ⟨rfl, ?_⟩
      change scan.limit = scan.limit - (0 - scan.offset)
      omega
  | cons item rest ih =>
      obtain ⟨offset, limit⟩ := ih (scan.next count withTies item)
      rw [copies_cons, List.length_append, List.length_replicate]
      change (scanned count withTies (scan.next count withTies item) rest).offset = _ ∧
        (scanned count withTies (scan.next count withTies item) rest).limit = _
      rw [offset, limit]
      change scan.offset - count item - (copies count rest).length = _ ∧
        scan.limit - (count item - scan.offset) - ((copies count rest).length - (scan.offset - count item)) = _
      omega

theorem scanned_closed (boundary : α) (closed : scan.boundary = some boundary) :
    (scanned count withTies scan items).boundary = some boundary := by
  induction items generalizing scan with
  | nil => exact closed
  | cons item rest ih =>
      apply ih
      simp only [Scan.next, closed]

theorem scanned_open (still : scan.boundary = none) :
    (scanned count false scan items).boundary = none := by
  induction items generalizing scan with
  | nil => exact still
  | cons item rest ih =>
      apply ih
      simp only [Scan.next, still, Scan.closes, Bool.false_and, Bool.false_eq_true, if_false]

end

section

variable (offset limit many : Nat) (items : List α)

-- The boundary is the last copy that LIMIT takes.
theorem scanned_boundary (positive : 0 < limit) :
    (scanned count true ⟨offset, limit, none⟩ items).boundary = ((copies count items).drop offset)[limit - 1]? := by
  induction items generalizing offset limit with
  | nil =>
      change none = ((copies count ([] : List α)).drop offset)[limit - 1]?
      rw [copies, List.flatMap_nil, List.drop_nil]
      rfl
  | cons item rest ih =>
      change (scanned count true (Scan.next count true ⟨offset, limit, none⟩ item) rest).boundary = _
      rw [drop_copies]
      by_cases last : limit ≤ count item - offset
      · have closes : Scan.closes count true ⟨offset, limit, none⟩ item = true := by
          simp only [Scan.closes, Scan.available, Bool.true_and, Bool.and_eq_true]
          exact ⟨decide_eq_true positive, decide_eq_true last⟩
        have closed : (Scan.next count true ⟨offset, limit, none⟩ item).boundary = some item := by
          simp only [Scan.next, closes, if_true]
        rw [scanned_closed count true _ rest item closed, List.getElem?_append_left (by rw [List.length_replicate]; omega),
          List.getElem?_replicate, if_pos (by omega)]
      · have goes : Scan.closes count true ⟨offset, limit, none⟩ item = false := by
          simp only [Scan.closes, Scan.available, Bool.true_and, Bool.and_eq_false_iff]
          exact .inr (decide_eq_false last)
        have next : Scan.next count true ⟨offset, limit, none⟩ item =
            ⟨offset - count item, limit - (count item - offset), none⟩ := by
          simp only [Scan.next, goes, Scan.available, Bool.false_eq_true, if_false]
        rw [next, ih _ _ (by omega), List.getElem?_append_right (by rw [List.length_replicate]; omega), List.length_replicate]
        congr 1
        omega

theorem rows_only :
    ((copies count items).drop offset).take limit = expand (taken count tied false ⟨offset, limit, none⟩ items) := by
  induction items generalizing offset limit with
  | nil =>
      change ((copies count ([] : List α)).drop offset).take limit = []
      rw [copies, List.flatMap_nil, List.drop_nil, List.take_nil]
  | cons item rest ih =>
      have next : Scan.next count false ⟨offset, limit, none⟩ item = ⟨offset - count item, limit - (count item - offset), none⟩ := by
        simp only [Scan.next, Scan.closes, Scan.available, Bool.false_and, Bool.false_eq_true, if_false]
      have here : Scan.take count tied false ⟨offset, limit, none⟩ item = min limit (count item - offset) := by
        simp only [Scan.take, Scan.closes, Scan.available, Bool.false_and, Bool.false_eq_true, if_false, Nat.min_comm]
      rw [taken, expand_cons, next, ← ih, here, drop_copies, List.take_append, List.take_replicate, List.length_replicate]

-- Behind the boundary the scan takes ties, as long as ties stand together.
theorem ties_only (boundary : α) (items : List α) (positive : ∀ item ∈ items, 0 < count item)
    (together : items.Pairwise fun first later => tied later boundary = true → tied first boundary = true) :
    (copies count items).takeWhile (fun item => tied item boundary) =
      expand (taken count tied withTies ⟨0, 0, some boundary⟩ items) := by
  induction items with
  | nil => rfl
  | cons item rest ih =>
      rw [List.pairwise_cons] at together
      have next : Scan.next count withTies ⟨0, 0, some boundary⟩ item = ⟨0, 0, some boundary⟩ := by
        simp only [Scan.next, Scan.available, Nat.zero_sub]
      have later := ih (fun other member => positive other (List.mem_cons_of_mem _ member)) together.2
      rw [taken, expand_cons, next, ← later, copies_cons]
      by_cases ties : tied item boundary = true
      · have here : Scan.take count tied withTies ⟨0, 0, some boundary⟩ item = count item := by
          simp only [Scan.take, ties, if_true, Scan.available, Nat.sub_zero]
        rw [here, List.takeWhile_append_of_pos]
        intro copy member
        rw [List.eq_of_mem_replicate member]
        exact ties
      · have here : Scan.take count tied withTies ⟨0, 0, some boundary⟩ item = 0 := by
          simp only [Scan.take, ties, Bool.false_eq_true, if_false]
        have some := positive item List.mem_cons_self
        obtain ⟨more, filled⟩ := Nat.exists_eq_succ_of_ne_zero (Nat.pos_iff_ne_zero.mp some)
        have stops : (copies count rest).takeWhile (fun item => tied item boundary) = [] := by
          cases listed : copies count rest with
          | nil => rfl
          | cons copy others =>
              have member : copy ∈ copies count rest := by
                rw [listed]
                exact List.mem_cons_self
              obtain ⟨other, inside, same⟩ := List.mem_flatMap.mp member
              rw [List.eq_of_mem_replicate same]
              apply List.takeWhile_cons_of_neg
              intro wrong
              exact ties (together.1 other inside wrong)
        rw [here, filled, List.replicate_succ, List.cons_append, List.takeWhile_cons_of_neg (p := fun item => tied item boundary) ties, stops]
        rfl

theorem ties_here (item : α) (rows : List α) (limited : 0 < limit) (last : limit ≤ many) (self : tied item item = true) :
    withTiesOf tied limit (List.replicate many item ++ rows) =
      List.replicate many item ++ rows.takeWhile fun other => tied other item := by
  have first : (List.replicate many item ++ rows).take limit = List.replicate limit item := by
    rw [List.take_append_of_le_length (by rw [List.length_replicate]; exact last), List.take_replicate, Nat.min_eq_left last]
  have rest : (List.replicate many item ++ rows).drop limit = List.replicate (many - limit) item ++ rows := by
    rw [List.drop_append_of_le_length (by rw [List.length_replicate]; exact last), List.drop_replicate]
  have ends : (List.replicate limit item).getLast? = some item := by
    rw [List.getLast?_replicate, if_neg (by omega)]
  rw [withTiesOf, first, rest, ends]
  change List.replicate limit item ++ (List.replicate (many - limit) item ++ rows).takeWhile (fun other => tied other item) = _
  rw [List.takeWhile_append_of_pos (by intro copy member; rw [List.eq_of_mem_replicate member]; exact self), ← List.append_assoc,
    List.replicate_append_replicate, Nat.add_sub_cancel' last]

theorem ties_later (item : α) (rows : List α) (goes : many < limit) :
    withTiesOf tied limit (List.replicate many item ++ rows) = List.replicate many item ++ withTiesOf tied (limit - many) rows := by
  have first : (List.replicate many item ++ rows).take limit = List.replicate many item ++ rows.take (limit - many) := by
    rw [List.take_append, List.take_replicate, List.length_replicate, Nat.min_eq_right (Nat.le_of_lt goes)]
  have rest : (List.replicate many item ++ rows).drop limit = rows.drop (limit - many) := by
    rw [List.drop_append, List.drop_replicate, List.length_replicate, Nat.sub_eq_zero_of_le (Nat.le_of_lt goes)]
    rfl
  unfold withTiesOf
  rw [first, rest]
  cases listed : rows with
  | nil =>
      simp only [List.take_nil, List.append_nil, List.drop_nil, List.takeWhile_nil, List.getLast?_nil]
      split <;> rfl
  | cons head tail =>
      have some : (head :: tail).take (limit - many) ≠ [] := by
        rw [ne_eq, List.take_eq_nil_iff]
        rintro (none | wrong)
        · omega
        · cases wrong
      rw [List.getLast?_append_of_ne_nil _ some]
      cases ((head :: tail).take (limit - many)).getLast? with
      | none => rfl
      | some last => exact List.append_assoc _ _ _

theorem with_ties (limited : 0 < limit) (positive : ∀ item ∈ items, 0 < count item) (self : ∀ item, tied item item = true)
    (together : Together tied items) :
    fetchFirst count tied true offset limit items = expand (taken count tied true ⟨offset, limit, none⟩ items) := by
  rw [fetchFirst, if_pos rfl]
  induction items generalizing offset limit with
  | nil =>
      rw [copies, List.flatMap_nil, List.drop_nil, withTiesOf, List.take_nil]
      rfl
  | cons item rest ih =>
      obtain ⟨behind, together⟩ := together
      have others := fun other member => positive other (List.mem_cons_of_mem _ member)
      rw [drop_copies, taken, expand_cons]
      by_cases last : limit ≤ count item - offset
      · have closes : Scan.closes count true ⟨offset, limit, none⟩ item = true := by
          simp only [Scan.closes, Scan.available, Bool.true_and, Bool.and_eq_true]
          exact ⟨decide_eq_true limited, decide_eq_true last⟩
        have here : Scan.take count tied true ⟨offset, limit, none⟩ item = count item - offset := by
          simp only [Scan.take, closes, if_true, Scan.available]
        have next : Scan.next count true ⟨offset, limit, none⟩ item = ⟨0, 0, some item⟩ := by
          simp only [Scan.next, closes, if_true, Scan.available]
          rw [Nat.sub_eq_zero_of_le (by omega), Nat.sub_eq_zero_of_le last]
        have passed : offset - count item = 0 := by omega
        rw [ties_here tied limit _ item _ limited last (self item), here, next, passed, List.drop_zero]
        rw [ties_only count tied true item rest others behind]
      · have goes : Scan.closes count true ⟨offset, limit, none⟩ item = false := by
          simp only [Scan.closes, Scan.available, Bool.true_and, Bool.and_eq_false_iff]
          exact .inr (decide_eq_false last)
        have here : Scan.take count tied true ⟨offset, limit, none⟩ item = count item - offset := by
          simp only [Scan.take, goes, Bool.false_eq_true, if_false, Scan.available]
          omega
        have next : Scan.next count true ⟨offset, limit, none⟩ item = ⟨offset - count item, limit - (count item - offset), none⟩ := by
          simp only [Scan.next, goes, Bool.false_eq_true, if_false, Scan.available]
        rw [ties_later tied limit _ item _ (by omega), here, next,
          ih (offset - count item) (limit - (count item - offset)) (by omega) others together]

-- A scan whose LIMIT is used up takes nothing more.
theorem nothing_left : expand (taken count tied false ⟨offset, 0, none⟩ items) = [] := by
  rw [← rows_only, List.take_zero]

end

theorem nothing_tied (scan : Scan α) (boundary : α) (closed : scan.boundary = some boundary) (items : List α)
    (apart : ∀ item ∈ items, tied item boundary = false) : expand (taken count tied withTies scan items) = [] := by
  induction items generalizing scan with
  | nil => rfl
  | cons item rest ih =>
      have here : scan.take count tied withTies item = 0 := by
        simp only [Scan.take, closed, apart item List.mem_cons_self, Bool.false_eq_true, if_false]
      rw [taken, expand_cons, here, ih (scan.next count withTies item) (scanned_closed count withTies scan [item] boundary closed)
        (fun other member => apart other (List.mem_cons_of_mem _ member))]
      rfl

-- DISTINCT: of equal items the first one is kept.
def firsts (same : α → α → Bool) (items : List α) : List α :=
  items.foldl (fun kept item => if kept.any (same item) then kept else kept ++ [item]) []

section Firsts

variable (same : α → α → Bool) (self : ∀ item, same item item = true)
  (linked : ∀ first second third, same first second = true → same second third = true → same first third = true)

theorem firsts_step (items : List α) (last : α) :
    firsts same (items ++ [last]) = if (firsts same items).any (same last) then firsts same items else firsts same items ++ [last] := by
  rw [firsts, List.foldl_append]
  rfl

include self linked

variable (items : List α)

omit self in
theorem firsts_any (item : α) : (firsts same items).any (same item) = items.any (same item) := by
  induction items using List.reverseRecOn with
  | nil => rfl
  | append_singleton items last ih =>
      rw [firsts_step, List.any_append, List.any_cons, List.any_nil, Bool.or_false]
      by_cases kept : (firsts same items).any (same last) = true
      · rw [if_pos kept, ih]
        by_cases tie : same item last = true
        · obtain ⟨other, member, meets⟩ := List.any_eq_true.mp kept
          have found : (firsts same items).any (same item) = true :=
            List.any_eq_true.mpr ⟨other, member, linked item last other tie meets⟩
          rw [← ih, found, Bool.true_or]
        · rw [Bool.eq_false_iff.mpr tie, Bool.or_false]
      · rw [if_neg kept, List.any_append, ih, List.any_cons, List.any_nil, Bool.or_false]

omit self in
theorem firsts_append_one (last : α) :
    firsts same (items ++ [last]) = if items.any (same last) then firsts same items else firsts same items ++ [last] := by
  rw [firsts_step, firsts_any same linked]

theorem firsts_replicate (item : α) (more : Nat) :
    firsts same (items ++ List.replicate (more + 1) item) = firsts same (items ++ [item]) := by
  induction more with
  | zero => rfl
  | succ more ih =>
      rw [List.replicate_succ', ← List.append_assoc, firsts_append_one same linked, if_pos, ih]
      rw [List.any_append, List.any_replicate, if_neg (by omega), self, Bool.or_true]

theorem firsts_copies (positive : ∀ item ∈ items, 0 < count item) (keep : α → Bool) :
    firsts same ((copies count items).filter keep) = firsts same (items.filter keep) ∧
      ((copies count items).filter keep).any = (items.filter keep).any := by
  induction items using List.reverseRecOn with
  | nil => exact ⟨rfl, rfl⟩
  | append_singleton items last ih =>
      obtain ⟨kept, met⟩ := ih fun item member => positive item (List.mem_append_left _ member)
      have some := positive last List.mem_concat_self
      obtain ⟨more, filled⟩ : ∃ more, count last = more + 1 := Nat.exists_eq_add_one.mpr some
      have single : copies count [last] = List.replicate (more + 1) last := by
        rw [copies_cons, filled, copies, List.flatMap_nil, List.append_nil]
      rw [copies_append, single, List.filter_append, List.filter_append]
      by_cases here : keep last = true
      · have whole : (List.replicate (more + 1) last).filter keep = List.replicate (more + 1) last := by
          rw [List.filter_replicate, if_pos here]
        rw [whole, List.filter_cons_of_pos here, List.filter_nil]
        constructor
        · rw [firsts_replicate same self linked, firsts_append_one same linked, firsts_append_one same linked, kept, met]
        · funext test
          rw [List.any_append, List.any_append, met, List.any_replicate, if_neg (by omega), List.any_cons, List.any_nil,
            Bool.or_false]
      · have none : (List.replicate (more + 1) last).filter keep = [] := by
          rw [List.filter_replicate, if_neg here]
        rw [none, List.filter_cons_of_neg here, List.filter_nil, List.append_nil, List.append_nil]
        exact ⟨kept, met⟩

end Firsts

end Fetch
