import Mathlib.Data.List.Sort
import Mathlib.Tactic

set_option autoImplicit false

namespace Lexicographic

universe u

variable {α : Type u}

-- A strict weak order that decides: what a sort operator promises.
structure Weak (before : α → α → Bool) : Prop where
  asymmetric : ∀ a b, before a b = true → before b a = false
  between : ∀ a b c, before a c = true → before a b = true ∨ before b c = true

def tied (before : α → α → Bool) (a b : α) : Bool := !before a b && !before b a

-- The first order that tells two items apart decides.
def chain : List (α → α → Bool) → α → α → Bool
  | [], _, _ => false
  | before :: rest, a, b => before a b || (tied before a b && chain rest a b)

theorem tied_iff (before : α → α → Bool) (a b : α) : tied before a b = true ↔ before a b = false ∧ before b a = false := by
  rw [tied, Bool.and_eq_true, Bool.not_eq_true', Bool.not_eq_true']

theorem tied_symm (before : α → α → Bool) (a b : α) : tied before a b = tied before b a := Bool.and_comm _ _

theorem less_weak [LinearOrder α] : Weak fun a b : α => decide (a < b) := by
  constructor
  · intro a b first
    exact decide_eq_false (not_lt.mpr (of_decide_eq_true first).le)
  · intro a b c first
    by_cases here : a < b
    · exact .inl (decide_eq_true here)
    · exact .inr (decide_eq_true ((not_lt.mp here).trans_lt (of_decide_eq_true first)))

theorem equal_tied [LinearOrder α] (a b : α) : decide (a = b) = tied (fun a b : α => decide (a < b)) a b := by
  rw [Bool.eq_iff_iff, tied_iff, decide_eq_true_eq, decide_eq_false_iff_not, decide_eq_false_iff_not, not_lt, not_lt]
  exact ⟨fun same => ⟨same.ge, same.le⟩, fun both => le_antisymm both.2 both.1⟩

section

variable {before : α → α → Bool} (weak : Weak before)

include weak

theorem irreflexive (a : α) : before a a = false := by
  cases same : before a a with
  | false => rfl
  | true => exact same.symm.trans (weak.asymmetric a a same)

theorem transitive (a b c : α) (first : before a b = true) (second : before b c = true) : before a c = true := by
  rcases weak.between a c b first with goal | back
  · exact goal
  · rw [weak.asymmetric b c second] at back
    cases back

theorem tied_self (a : α) : tied before a a = true := (tied_iff before a a).mpr ⟨irreflexive weak a, irreflexive weak a⟩

variable (a b c : α) (same : tied before a b = true)

include same

-- Tied items come before the same items.
theorem tied_left : before a c = before b c := by
  obtain ⟨forth, back⟩ := (tied_iff before a b).mp same
  rw [Bool.eq_iff_iff]
  constructor
  · intro first
    rcases weak.between a b c first with wrong | goal
    · exact absurd wrong (Bool.eq_false_iff.mp forth)
    · exact goal
  · intro first
    rcases weak.between b a c first with wrong | goal
    · exact absurd wrong (Bool.eq_false_iff.mp back)
    · exact goal

theorem tied_right : before c a = before c b := by
  obtain ⟨forth, back⟩ := (tied_iff before a b).mp same
  rw [Bool.eq_iff_iff]
  constructor
  · intro first
    rcases weak.between c b a first with goal | wrong
    · exact goal
    · exact absurd wrong (Bool.eq_false_iff.mp back)
  · intro first
    rcases weak.between c a b first with goal | wrong
    · exact goal
    · exact absurd wrong (Bool.eq_false_iff.mp forth)

theorem tied_congr : tied before a c = tied before b c := by
  rw [tied, tied, tied_left weak a b c same, tied_right weak a b c same]

end

theorem then_weak (first second : α → α → Bool) (weakFirst : Weak first) (weakSecond : Weak second) :
    Weak (fun a b => first a b || (tied first a b && second a b)) := by
  constructor
  · intro a b precedes
    rw [Bool.or_eq_true, Bool.and_eq_true] at precedes
    rw [Bool.or_eq_false_iff, Bool.and_eq_false_iff]
    rcases precedes with here | ⟨same, later⟩
    · refine ⟨weakFirst.asymmetric a b here, .inl ?_⟩
      rw [tied, here]
      exact Bool.and_false _
    · exact ⟨((tied_iff first a b).mp same).2, .inr (weakSecond.asymmetric a b later)⟩
  · intro a b c precedes
    rw [Bool.or_eq_true, Bool.and_eq_true] at precedes
    simp only [Bool.or_eq_true, Bool.and_eq_true]
    rcases precedes with here | ⟨same, later⟩
    · rcases weakFirst.between a b c here with left | right
      · exact .inl (.inl left)
      · exact .inr (.inl right)
    · by_cases sameLeft : tied first a b = true
      · have sameRight : tied first b c = true := by
          rw [← tied_congr weakFirst a b c sameLeft]
          exact same
        rcases weakSecond.between a b c later with left | right
        · exact .inl (.inr ⟨sameLeft, left⟩)
        · exact .inr (.inr ⟨sameRight, right⟩)
      · cases forth : first a b with
        | true => exact .inl (.inl rfl)
        | false =>
            have back : first b a = true := by
              cases other : first b a with
              | true => rfl
              | false => exact absurd ((tied_iff first a b).mpr ⟨forth, other⟩) sameLeft
            rw [tied_right weakFirst a c b same] at back
            exact .inr (.inl back)

theorem chain_weak (keys : List (α → α → Bool)) (weak : ∀ key ∈ keys, Weak key) : Weak (chain keys) := by
  induction keys with
  | nil => exact ⟨fun _ _ wrong => (by cases wrong), fun _ _ _ wrong => (by cases wrong)⟩
  | cons key rest ih =>
      have later := ih fun other member => weak other (List.mem_cons_of_mem _ member)
      exact then_weak key (chain rest) (weak key List.mem_cons_self) later

-- An order of items that may be missing.
def nullable (nullsFirst : Bool) (before : α → α → Bool) : Option α → Option α → Bool
  | none, none => false
  | none, some _ => nullsFirst
  | some _, none => !nullsFirst
  | some a, some b => before a b

theorem nullable_weak (nullsFirst : Bool) (before : α → α → Bool) (weak : Weak before) : Weak (nullable nullsFirst before) := by
  constructor
  · intro a b precedes
    cases a <;> cases b <;> simp_all [nullable, weak.asymmetric]
  · intro a b c precedes
    cases a with
    | none => cases b <;> cases c <;> simp_all [nullable]
    | some a =>
        cases c with
        | none => cases b <;> simp_all [nullable]
        | some c =>
            cases b with
            | none => cases nullsFirst <;> simp_all [nullable]
            | some b => exact weak.between a b c precedes

theorem on_weak {β : Type u} (value : α → β) (before : β → β → Bool) (weak : Weak before) :
    Weak (fun a b => before (value a) (value b)) :=
  ⟨fun _ _ => weak.asymmetric _ _, fun _ _ _ => weak.between _ _ _⟩

-- ORDER BY.
def sorted (before : α → α → Bool) (items : List α) : List α := items.insertionSort fun a b => before b a = false

section Sorted

variable {before : α → α → Bool} (weak : Weak before)

theorem sorted_perm (items : List α) : (sorted before items).Perm items := List.perm_insertionSort _ items

include weak

theorem sorted_pairwise (items : List α) : (sorted before items).Pairwise fun a b => before b a = false := by
  have : Std.Total (fun a b : α => before b a = false) := by
    constructor
    intro a b
    cases first : before b a with
    | false => exact .inl rfl
    | true => exact .inr (weak.asymmetric b a first)
  have : IsTrans α (fun a b => before b a = false) := by
    constructor
    intro a b c first second
    cases wrong : before c a with
    | false => rfl
    | true =>
        rcases weak.between c b a wrong with later | earlier
        · exact later.symm.trans second
        · exact earlier.symm.trans first
  exact List.pairwise_insertionSort _ items

-- Where no two items tie, the order is strict.
theorem sorted_strict {items : List α} (distinct : items.Pairwise fun a b => tied before a b = false) :
    (sorted before items).Pairwise fun a b => before a b = true := by
  have apart : (sorted before items).Pairwise fun a b => tied before a b = false :=
    (sorted_perm items).symm.pairwise distinct (fun {a b} ties => by rw [tied_symm]; exact ties)
  refine (sorted_pairwise weak items).imp₂ ?_ apart
  intro a b later ties
  cases first : before a b with
  | true => rfl
  | false => rw [(tied_iff before a b).mpr ⟨first, later⟩] at ties; cases ties

-- The items after one of them are the rest of the list.
theorem filter_after {earlier later : List α} {boundary : α}
    (ordered : (earlier ++ boundary :: later).Pairwise fun a b => before a b = true) :
    (earlier ++ boundary :: later).filter (before boundary) = later := by
  rw [List.pairwise_append, List.pairwise_cons] at ordered
  obtain ⟨_, ⟨behind, _⟩, ahead⟩ := ordered
  have none : earlier.filter (before boundary) = [] := by
    rw [List.filter_eq_nil_iff]
    intro item member wrong
    rw [weak.asymmetric item boundary (ahead item member boundary List.mem_cons_self)] at wrong
    cases wrong
  have all : later.filter (before boundary) = later := by
    rw [List.filter_eq_self]
    exact behind
  rw [List.filter_append, none, List.nil_append, List.filter_cons_of_neg (by rw [irreflexive weak]; exact Bool.false_ne_true),
    all]

theorem sorted_filter (items : List α) (distinct : items.Pairwise fun a b => tied before a b = false) (keep : α → Bool) :
    sorted before (items.filter keep) = (sorted before items).filter keep := by
  have one := sorted_strict weak (distinct.filter keep)
  have other := (sorted_strict weak distinct).filter keep
  refine List.Perm.eq_of_pairwise ?_ one other ?_
  · intro a b _ _ forth back
    rw [weak.asymmetric a b forth] at back
    cases back
  · exact (sorted_perm _).trans ((sorted_perm items).symm.filter keep)

-- Every item of the list stands behind as many items as come before it.
theorem filter_before (earlier later : List α) (item : α)
    (ordered : (earlier ++ item :: later).Pairwise fun a b => before a b = true) :
    (earlier ++ item :: later).filter (before · item) = earlier := by
  rw [List.pairwise_append, List.pairwise_cons] at ordered
  obtain ⟨_, ⟨behind, _⟩, ahead⟩ := ordered
  have all : earlier.filter (before · item) = earlier := by
    rw [List.filter_eq_self]
    intro other member
    exact ahead other member item List.mem_cons_self
  have none : later.filter (before · item) = [] := by
    rw [List.filter_eq_nil_iff]
    intro other member wrong
    rw [weak.asymmetric item other (behind other member)] at wrong
    cases wrong
  rw [List.filter_append, all, List.filter_cons_of_neg (by rw [irreflexive weak]; exact Bool.false_ne_true), none,
    List.append_nil]

theorem sorted_congr (first second : List α) (distinct : first.Pairwise fun a b => tied before a b = false)
    (same : first.Perm second) : sorted before first = sorted before second := by
  have others : second.Pairwise fun a b => tied before a b = false :=
    same.pairwise distinct (fun {a b} ties => by rw [tied_symm]; exact ties)
  refine List.Perm.eq_of_pairwise ?_ (sorted_strict weak distinct) (sorted_strict weak others) ?_
  · intro a b _ _ forth back
    rw [weak.asymmetric a b forth] at back
    cases back
  · exact (sorted_perm first).trans (same.trans (sorted_perm second).symm)

-- A LIMIT inside one part of the items changes nothing under the same LIMIT.
theorem sorted_limited (limit : Nat) (other part : List α)
    (distinct : (other ++ part).Pairwise fun a b => tied before a b = false) :
    (sorted before (other ++ (sorted before part).take limit)).take limit = (sorted before (other ++ part)).take limit := by
  have apart := (List.pairwise_append.mp distinct).2.1
  have strictPart := sorted_strict weak apart
  have strict := sorted_strict weak distinct
  generalize whole : sorted before (other ++ part) = items at strict
  have perm : items.Perm ((other ++ (sorted before part).take limit) ++ (sorted before part).drop limit) := by
    rw [← whole, List.append_assoc, List.take_append_drop]
    exact (sorted_perm _).trans ((sorted_perm part).symm.append_left other)
  -- What the inner LIMIT leaves out has as many items before it.
  have left : ∀ item ∈ (sorted before part).drop limit, item ∉ items.take limit := by
    intro item dropped taken
    obtain ⟨earlier, later, split⟩ := List.append_of_mem taken
    have listed : items = earlier ++ item :: (later ++ items.drop limit) := by
      conv => lhs; rw [← List.take_append_drop limit items, split]
      rw [List.append_assoc, List.cons_append]
    have front : items.filter (before · item) = earlier := by
      rw [listed] at strict ⊢
      exact filter_before weak _ _ _ strict
    have short : earlier.length < limit := by
      have length := congrArg List.length split
      rw [List.length_take, List.length_append, List.length_cons] at length
      omega
    have first : ((sorted before part).take limit).filter (before · item) = (sorted before part).take limit := by
      rw [List.filter_eq_self]
      intro one member
      rw [← List.take_append_drop limit (sorted before part), List.pairwise_append] at strictPart
      exact strictPart.2.2 one member item dropped
    have long := (perm.filter (before · item)).length_eq
    rw [front, List.filter_append, List.filter_append, first, List.length_append, List.length_append, List.length_take] at long
    have some := List.length_pos_of_mem dropped
    rw [List.length_drop] at some
    omega
  have nodup : ((other ++ (sorted before part).take limit) ++ (sorted before part).drop limit).Nodup := by
    apply perm.nodup_iff.mp
    apply strict.imp
    intro a b forth same
    rw [same, irreflexive weak] at forth
    cases forth
  have disjoint := List.nodup_append.mp nodup
  have front : ∀ item ∈ items.take limit, item ∈ other ++ (sorted before part).take limit := by
    intro item member
    rcases List.mem_append.mp (perm.mem_iff.mp (List.mem_of_mem_take member)) with kept | dropped
    · exact kept
    · exact absurd member (left item dropped)
  classical
  have kept : sorted before (other ++ (sorted before part).take limit) =
      items.filter fun item => decide (item ∈ other ++ (sorted before part).take limit) := by
    have chosen : (other ++ (sorted before part).take limit).Pairwise fun a b => tied before a b = false := by
      rw [List.pairwise_append] at distinct ⊢
      refine ⟨distinct.1, ?_, ?_⟩
      · exact ((sorted_perm part).symm.pairwise apart (fun {a b} ties => by rw [tied_symm]; exact ties)).sublist
          (List.take_sublist _ _)
      · intro a member b taken
        exact distinct.2.2 a member b ((sorted_perm part).mem_iff.mp (List.mem_of_mem_take taken))
    refine List.Perm.eq_of_pairwise ?_ (sorted_strict weak chosen) (strict.filter _) ?_
    · intro a b _ _ forth back
      rw [weak.asymmetric a b forth] at back
      cases back
    · apply (sorted_perm _).trans
      apply List.Perm.trans _ (perm.symm.filter _)
      rw [List.filter_append, List.filter_eq_self.mpr fun item member => decide_eq_true member,
        List.filter_eq_nil_iff.mpr fun item dropped => by
          rw [decide_eq_true_eq]
          exact fun member => disjoint.2.2 item member item dropped rfl,
        List.append_nil]
  rw [kept]
  have whole := List.filter_eq_self.mpr fun item member => decide_eq_true (front item member)
  conv => lhs; rw [← List.take_append_drop limit items]
  rw [List.filter_append, whole]
  by_cases long : limit ≤ items.length
  · rw [List.take_append_of_le_length (by rw [List.length_take]; omega), List.take_take, Nat.min_self]
  · rw [List.drop_eq_nil_of_le (by omega), List.filter_nil, List.append_nil, List.take_take, Nat.min_self]

omit weak in
theorem filter_either (first second : α → Bool) (items : List α)
    (apart : ∀ item ∈ items, first item = true → second item = false) :
    (items.filter first ++ items.filter second).Perm (items.filter fun item => first item || second item) := by
  induction items with
  | nil => exact List.Perm.nil
  | cons item rest ih =>
      have later := ih fun other member => apart other (List.mem_cons_of_mem _ member)
      by_cases one : first item = true
      · have not := apart item List.mem_cons_self one
        rw [List.filter_cons_of_pos one, List.filter_cons_of_neg (by rw [not]; exact Bool.false_ne_true),
          List.filter_cons_of_pos (by rw [one]; rfl), List.cons_append]
        exact later.cons item
      · by_cases other : second item = true
        · rw [List.filter_cons_of_neg one, List.filter_cons_of_pos other,
            List.filter_cons_of_pos (by rw [other, Bool.or_true])]
          exact List.perm_middle.trans (later.cons item)
        · rw [List.filter_cons_of_neg one, List.filter_cons_of_neg other,
            List.filter_cons_of_neg (by rw [Bool.or_eq_true]; exact not_or.mpr ⟨one, other⟩)]
          exact later

-- The first rows of disjoint ranges are the first rows of the ranges together.
theorem sorted_ranges (limit : Nat) (ranges : List (α → Bool)) (items : List α)
    (distinct : items.Pairwise fun a b => tied before a b = false)
    (apart : ranges.Pairwise fun first second => ∀ item ∈ items, first item = true → second item = false) :
    (sorted before (ranges.flatMap fun range => (sorted before (items.filter range)).take limit)).take limit =
        (sorted before (items.filter fun item => ranges.any fun range => range item)).take limit ∧
      (ranges.flatMap fun range => (sorted before (items.filter range)).take limit).Subperm
        (items.filter fun item => ranges.any fun range => range item) := by
  induction ranges with
  | nil =>
      have nothing : (items.filter fun item => ([] : List (α → Bool)).any fun range => range item) = [] :=
        List.filter_eq_nil_iff.mpr fun item _ => Bool.false_ne_true
      rw [nothing]
      exact ⟨rfl, List.Subperm.refl _⟩
  | cons range rest ih =>
      obtain ⟨here, later⟩ := List.pairwise_cons.mp apart
      obtain ⟨same, inner⟩ := ih later
      have either := filter_either range (fun item => rest.any fun range => range item) items (by
        intro item member one
        rw [List.any_eq_false]
        intro other listed
        rw [here other listed item member one]
        exact Bool.false_ne_true)
      have apartEither : (items.filter range ++ items.filter fun item => rest.any fun range => range item).Pairwise
          fun a b => tied before a b = false :=
        either.symm.pairwise (distinct.filter _) (fun {a b} ties => by rw [tied_symm]; exact ties)
      obtain ⟨chosen, perm, sublist⟩ := inner
      have apartChosen : (items.filter range ++ rest.flatMap fun range => (sorted before (items.filter range)).take limit).Pairwise
          fun a b => tied before a b = false :=
        (perm.append_left (items.filter range)).pairwise (apartEither.sublist (sublist.append_left _))
          (fun {a b} ties => by rw [tied_symm]; exact ties)
      simp only [List.flatMap_cons, List.any_cons]
      generalize rest.flatMap (fun range => (sorted before (items.filter range)).take limit) = parts at *
      generalize items.filter (fun item => rest.any fun range => range item) = behind at *
      have limited : ((sorted before (items.filter range)).take limit).Subperm (items.filter range) :=
        (List.take_sublist _ _).subperm.trans (sorted_perm _).subperm
      have inner : parts.Subperm behind := ⟨chosen, perm, sublist⟩
      refine ⟨?_, (limited.append inner).trans either.subperm⟩
      have swapped : (parts ++ items.filter range).Pairwise fun a b => tied before a b = false :=
        List.perm_append_comm.pairwise apartChosen (fun {a b} ties => by rw [tied_symm]; exact ties)
      have cut : (parts ++ (sorted before (items.filter range)).take limit).Pairwise fun a b => tied before a b = false := by
        rw [List.pairwise_append] at swapped ⊢
        refine ⟨swapped.1, ?_, ?_⟩
        · exact ((sorted_perm _).symm.pairwise swapped.2.1 (fun {a b} ties => by rw [tied_symm]; exact ties)).sublist
            (List.take_sublist _ _)
        · intro a member b taken
          exact swapped.2.2 a member b ((sorted_perm _).mem_iff.mp (List.mem_of_mem_take taken))
      calc
        (sorted before ((sorted before (items.filter range)).take limit ++ parts)).take limit
            = (sorted before (parts ++ (sorted before (items.filter range)).take limit)).take limit := by
              rw [sorted_congr weak _ _ cut List.perm_append_comm]
        _ = (sorted before (parts ++ items.filter range)).take limit := sorted_limited weak limit _ _ swapped
        _ = (sorted before (items.filter range ++ parts)).take limit := by
              rw [sorted_congr weak _ _ swapped List.perm_append_comm]
        _ = (sorted before (items.filter range ++ (sorted before parts).take limit)).take limit :=
              (sorted_limited weak limit _ _ apartChosen).symm
        _ = (sorted before (items.filter range ++ (sorted before behind).take limit)).take limit := by rw [same]
        _ = (sorted before (items.filter range ++ behind)).take limit := sorted_limited weak limit _ _ apartEither
        _ = _ := by
              rw [sorted_congr weak _ _ apartEither either]

end Sorted

end Lexicographic
