import Shiba.Join.Own

set_option autoImplicit false

namespace Shiba.Join

open Shiba.Execution Weighted

section

variable {α : Type} (values : InputSide → α) (side : InputSide) (value : α)

@[simp] theorem set_side_same : setSide values side value side = value := if_pos rfl

@[simp] theorem set_side_other {other : InputSide} (different : other ≠ side) : setSide values side value other = values other :=
  if_neg different

theorem set_side_twice (later : α) : setSide (setSide values side value) side later = setSide values side later := by
  funext other
  unfold setSide
  split <;> rfl

theorem set_side_self : setSide values side (values side) = values := by
  funext other
  by_cases same : other = side
  · rw [same, set_side_same]
  · rw [set_side_other values side _ same]

end

section

variable {Row : Type}

theorem past_all_cursor (spec : JoinSpec Row) (side : InputSide) (row : Row) (done : List (Entry Row))
    (progress : InputProgress) (positive : ∀ entry ∈ done, 0 < entry.rowId) (behind : Behind progress.candidateAfter done) :
    cursor progress ≤ cursor (progress.pastAll spec side row done) ∧
      ∀ entry ∈ done, entry.rowId ≤ cursor (progress.pastAll spec side row done) := by
  induction done generalizing progress with
  | nil => exact ⟨Int.le_refl _, fun _ member => by cases member⟩
  | cons entry rest ih =>
      obtain ⟨forward, reached⟩ := ih (progress.past spec side row entry)
        (fun other member => positive other (List.mem_cons_of_mem _ member)) behind.2
      have here : cursor (progress.past spec side row entry) = entry.rowId := rfl
      have step : cursor progress ≤ entry.rowId := by
        unfold cursor
        cases after : progress.candidateAfter with
        | none => exact Int.le_of_lt (positive entry List.mem_cons_self)
        | some rowId => exact Int.le_of_lt (behind.1 rowId after)
      rw [here] at forward
      refine ⟨Int.le_trans step forward, ?_⟩
      intro other member
      rcases List.mem_cons.mp member with rfl | later
      · exact forward
      · exact reached other later

theorem ahead_cursor (progress : InputProgress) (rest : List (Entry Row)) (positive : ∀ entry ∈ rest, 0 < entry.rowId)
    (ahead : Behind progress.candidateAfter rest) : ∀ entry ∈ rest, cursor progress < entry.rowId := by
  intro entry member
  unfold cursor
  cases after : progress.candidateAfter with
  | none => exact positive entry member
  | some rowId => exact behind_all progress.candidateAfter rest ahead rowId after entry member

variable [DecidableEq Row]

abbrev expectedOwn (entries : List (Entry Row)) (row : Row) : OwnExpectation :=
  ((ownEntry entries row).map Entry.expectation).getD {}

variable (spec : JoinSpec Row) (consumed : List ((InputSide × Row) × Int))

-- The own row is the bag's, if it is stored at all.
theorem own_known {arrangement : InputSide → List (Entry Row)} {nextRowId : InputSide → Int}
    (tallied : Tallied spec consumed arrangement nextRowId) (side : InputSide) (row : Row) :
    ((expectedOwn (arrangement side) row).multiplicity : Int) = bagOf consumed side row ∧
    ((expectedOwn (arrangement side) row).rowId = none → ownEntry (arrangement side) row = none ∧
      expectedOwn (arrangement side) row = {}) ∧
    (∀ rowId, (expectedOwn (arrangement side) row).rowId = some rowId → ∃ own, ownEntry (arrangement side) row = some own ∧
      own ∈ arrangement side ∧ own.row = row ∧ expectedOwn (arrangement side) row = own.expectation) := by
  cases found : ownEntry (arrangement side) row with
  | none =>
      have absent : bagOf consumed side row = 0 := by
        by_contra nonzero
        obtain ⟨entry, member, same⟩ := tallied.present side row nonzero
        exact own_entry_none _ row found entry member same
      have empty : expectedOwn (arrangement side) row = {} := by
        unfold expectedOwn
        rw [found]
        rfl
      rw [empty, absent]
      exact ⟨rfl, fun _ => ⟨rfl, rfl⟩, fun _ same => by cases same⟩
  | some own =>
      obtain ⟨member, named⟩ := own_entry_some found
      have held : expectedOwn (arrangement side) row = own.expectation := by
        unfold expectedOwn
        rw [found]
        rfl
      rw [held]
      refine ⟨?_, fun missing => (by cases missing), fun _ _ => ⟨own, rfl, member, named, rfl⟩⟩
      rw [← named]
      exact (tallied.stored side own member).1

-- An event whose multiplicities, match counts and pair weights are bigint values.
structure Representable (side : InputSide) (row : Row) (amount : Int) : Prop where
  multiplicity : bagOf consumed side row + amount ≤ bigintMax
  matched : meeting spec consumed side row .true ≤ bigintMax
  unknown : meeting spec consumed side row .unknown ≤ bigintMax
  others : ∀ other truth, 0 < bagOf consumed side.opposite other → truthOf spec.condition side row other = truth →
    truth ≠ .false → meeting spec consumed side.opposite other truth + amount ≤ bigintMax
  pairs : ∀ other, 0 < bagOf consumed side.opposite other → truthOf spec.condition side row other = .true →
    emitsPairs spec.mode = true → -(bigintMax : Int) - 1 ≤ amount * bagOf consumed side.opposite other ∧
      amount * bagOf consumed side.opposite other ≤ bigintMax

section

variable (arrangement : InputSide → List (Entry Row)) {nextRowId : InputSide → Int} (outputs : List (OutputRow Row × Int))
  (settled : Settled spec consumed arrangement nextRowId outputs) {side : InputSide} (row : Row) {amount : Int}
  (natural : 0 ≤ bagOf consumed side row + amount) (representable : Representable spec consumed side row amount)

include settled

include natural representable

theorem own_valid : (expectedOwn (arrangement side) row).validateEvent amount = .ok () := by
  obtain ⟨stored, absent, present⟩ := own_known spec consumed settled.tallied side row
  have fits := representable.multiplicity
  have valid : (expectedOwn (arrangement side) row).validate = .ok () ∧
      (expectedOwn (arrangement side) row).multiplicity ≤ bigintMax := by
    cases known : (expectedOwn (arrangement side) row).rowId with
    | none =>
        rw [(absent known).2]
        exact ⟨rfl, Nat.zero_le _⟩
    | some rowId =>
        obtain ⟨own, _, member, _, held⟩ := present rowId known
        have counts := (settled.counted side own member).fit
        have identified := (settled.identified side own member).1
        obtain ⟨_, positive, small⟩ := settled.stored side own member
        rw [held]
        refine ⟨?_, small⟩
        rw [OwnExpectation.validate]
        simp only [Entry.expectation, counts_ok _ counts, stable_id_ok _ identified, ok_bind]
        exact positive_count_ok _ _ positive small
  rw [OwnExpectation.validateEvent, valid.1, ok_bind,
    signed_count_ok _ valid.2 (by rw [stored]; exact natural) (by rw [stored]; exact fits)]
  rfl

theorem all_meetable (entry : Entry Row) (member : entry ∈ arrangement side.opposite) :
    Meetable spec side row amount entry := by
  obtain ⟨stored, positive, small⟩ := settled.stored side.opposite entry member
  have counted := settled.counted side.opposite entry member
  have inside : 0 < bagOf consumed side.opposite entry.row := by omega
  have mine := bag_le_meeting spec consumed settled.natural side.opposite entry.row row
  rw [opposite_opposite, truth_of_opposite] at mine
  have pairs := representable.pairs entry.row inside
  rw [← stored] at pairs
  refine ⟨(settled.identified side.opposite entry member).1, positive, small, counted.fit, ?_, ?_, ?_, ?_,
    fun hit emits => (pairs hit emits).1, fun hit emits => (pairs hit emits).2⟩
  · intro hit
    rw [show truthOf spec.condition side row entry.row = .true from hit] at mine
    rw [counted.matched]
    omega
  · intro hit
    rw [counted.matched]
    exact representable.others entry.row .true inside hit (by decide)
  · intro hit
    rw [show truthOf spec.condition side row entry.row = .unknown from hit] at mine
    rw [counted.unknown]
    omega
  · intro hit
    rw [counted.unknown]
    exact representable.others entry.row .unknown inside hit (by decide)

end

end

end Shiba.Join
