import Shiba.Join.Writes

set_option autoImplicit false

namespace Shiba.Join

open Shiba.Execution Weighted

section

variable {Row : Type}

theorem behind_filter (kept : Entry Row → Bool) (after : Option Int) (entries : List (Entry Row))
    (behind : Behind after entries) : Behind after (entries.filter kept) := by
  induction entries generalizing after with
  | nil => trivial
  | cons entry rest ih =>
      by_cases stays : kept entry = true
      · rw [List.filter_cons_of_pos stays]
        exact ⟨behind.1, ih (some entry.rowId) behind.2⟩
      · rw [List.filter_cons_of_neg stays]
        apply ih after
        cases rest with
        | nil => trivial
        | cons next later =>
            refine ⟨?_, behind.2.2⟩
            intro rowId known
            have first := behind.1 rowId known
            have second := behind.2.1 entry.rowId rfl
            omega

theorem behind_append (after : Option Int) (entries : List (Entry Row)) (new : Entry Row) (behind : Behind after entries)
    (start : ∀ rowId, after = some rowId → rowId < new.rowId) (later : ∀ entry ∈ entries, entry.rowId < new.rowId) :
    Behind after (entries ++ [new]) := by
  induction entries generalizing after with
  | nil => exact ⟨start, trivial⟩
  | cons entry rest ih =>
      have here := later entry List.mem_cons_self
      refine ⟨behind.1, ih (some entry.rowId) behind.2 ?_ fun other member => later other (List.mem_cons_of_mem _ member)⟩
      intro rowId known
      have same := Option.some.inj known
      omega

-- An arrangement after the event of one of its own rows.
structure OwnApplied (row : Row) (multiplicity : Nat) (counts : MatchCounts) (nextRowId : Int)
    (before after : List (Entry Row)) : Prop where
  ordered : Behind none after
  distinct : (after.map Entry.row).Nodup
  identified : ∀ entry ∈ after, 0 < entry.rowId ∧ entry.rowId < nextRowId + 1
  others : ∀ entry ∈ after, entry.row ≠ row → entry ∈ before
  kept : ∀ entry ∈ before, entry.row ≠ row → entry ∈ after
  mine : ∀ entry ∈ after, entry.row = row → entry.multiplicity = multiplicity ∧ entry.counts = counts ∧ 0 < multiplicity
  present : 0 < multiplicity → ∃ entry ∈ after, entry.row = row

variable [DecidableEq Row]

theorem own_entry_none (entries : List (Entry Row)) (row : Row) (missing : ownEntry entries row = none) :
    ∀ entry ∈ entries, entry.row ≠ row := by
  intro entry member same
  have absent := List.find?_eq_none.mp missing entry member
  exact absent (decide_eq_true same)

theorem own_entry_some {entries : List (Entry Row)} {row : Row} {own : Entry Row} (found : ownEntry entries row = some own) :
    own ∈ entries ∧ own.row = row := by
  have hit := List.find?_some found
  exact ⟨List.mem_of_find?_eq_some found, of_decide_eq_true hit⟩

section

variable {entries : List (Entry Row)} (nextRowId : Int) (row : Row) (behind : Behind none entries) (fresh : 0 < nextRowId)
  (identified : ∀ entry ∈ entries, 0 < entry.rowId ∧ entry.rowId < nextRowId) (distinct : (entries.map Entry.row).Nodup)

include behind fresh identified distinct

theorem own_inserted (change : OwnStateChange) (kind : change.kind = .insert) (missing : ownEntry entries row = none)
    (positive : 0 < change.newMultiplicity) :
    ∃ after, applyOwnChange entries nextRowId row change = .ok after ∧
      OwnApplied row change.newMultiplicity change.counts nextRowId entries after := by
  have others := own_entry_none entries row missing
  refine ⟨entries ++ [{ rowId := nextRowId, row := row, multiplicity := change.newMultiplicity, counts := change.counts }],
    ?_, ?_⟩
  · unfold applyOwnChange
    rw [kind]
    simp only [missing]
    rfl
  refine ⟨?_, ?_, ?_, ?_, ?_, ?_, fun _ => ⟨_, List.mem_append_right _ (List.mem_singleton.mpr rfl), rfl⟩⟩
  · exact behind_append none entries _ behind (fun _ same => by cases same) fun entry member => (identified entry member).2
  · rw [List.map_append, List.nodup_append]
    refine ⟨distinct, List.nodup_singleton _, ?_⟩
    intro one first other second same
    obtain ⟨entry, member, rfl⟩ := List.mem_map.mp first
    rw [List.map_cons, List.map_nil, List.mem_singleton] at second
    exact others entry member (same.trans second)
  · intro entry member
    rcases List.mem_append.mp member with old | new
    · have known := identified entry old
      omega
    · rw [List.mem_singleton.mp new]
      exact ⟨fresh, Int.lt_succ nextRowId⟩
  · intro entry member different
    rcases List.mem_append.mp member with old | new
    · exact old
    · rw [List.mem_singleton.mp new] at different
      exact absurd rfl different
  · exact fun entry member _ => List.mem_append_left _ member
  · intro entry member same
    rcases List.mem_append.mp member with old | new
    · exact absurd same (others entry old)
    · rw [List.mem_singleton.mp new]
      exact ⟨rfl, rfl, positive⟩

section

variable (own : Entry Row) (found : ownEntry entries row = some own) {change : OwnStateChange}
  (named : change.expectedRowId = some own.rowId ∧ change.expectedMultiplicity = own.multiplicity ∧ change.counts = own.counts)

include found named

omit fresh identified in
-- The compare-and-set names the own row alone.
theorem finds_iff (entry : Entry Row) (member : entry ∈ entries) : change.finds entry = true ↔ entry.row = row := by
  obtain ⟨stored, same⟩ := own_entry_some found
  simp only [OwnStateChange.finds, named, Bool.and_eq_true, decide_eq_true_eq, Option.some.injEq]
  constructor
  · rintro ⟨⟨rowId, _⟩, _⟩
    rw [behind_unique none entries behind member stored rowId, same]
  · intro mine
    have equal : entry = own := List.inj_on_of_nodup_map distinct member stored (mine.trans same.symm)
    rw [equal]
    exact ⟨⟨rfl, rfl⟩, rfl⟩

omit fresh identified in
theorem finds_any : entries.any change.finds = true := by
  obtain ⟨stored, same⟩ := own_entry_some found
  apply List.any_eq_true.mpr
  exact ⟨own, stored, (finds_iff row behind distinct own found named own stored).mpr same⟩

omit fresh in
theorem own_updated (kind : change.kind = .update) (positive : 0 < change.newMultiplicity) :
    ∃ after, applyOwnChange entries nextRowId row change = .ok after ∧
      OwnApplied row change.newMultiplicity change.counts nextRowId entries after := by
  have hits := finds_iff row behind distinct own found named
  obtain ⟨stored, same⟩ := own_entry_some found
  refine ⟨entries.map fun entry => if change.finds entry then { entry with multiplicity := change.newMultiplicity } else entry,
    ?_, ?_, ?_, ?_, ?_, ?_, ?_, fun _ => ⟨_, List.mem_map_of_mem stored, ?_⟩⟩
  · unfold applyOwnChange
    rw [kind]
    simp only [finds_any row behind distinct own found named]
    rfl
  · exact behind_map _ (fun entry => by split <;> rfl) none entries behind
  · have rows : (entries.map fun entry =>
        if change.finds entry then { entry with multiplicity := change.newMultiplicity } else entry).map Entry.row =
          entries.map Entry.row := by
      rw [List.map_map]
      apply List.map_congr_left
      intro entry _
      simp only [Function.comp_apply]
      split <;> rfl
    rw [rows]
    exact distinct
  · intro entry member
    obtain ⟨old, inside, rfl⟩ := List.mem_map.mp member
    have known := identified old inside
    split
    · simp only
      omega
    · omega
  · intro entry member different
    obtain ⟨old, inside, rfl⟩ := List.mem_map.mp member
    by_cases hit : change.finds old = true
    · rw [if_pos hit] at different
      exact absurd ((hits old inside).mp hit) different
    · rw [if_neg hit]
      exact inside
  · intro entry member different
    apply List.mem_map.mpr
    exact ⟨entry, member, if_neg fun hit => different ((hits entry member).mp hit)⟩
  · intro entry member mine
    obtain ⟨old, inside, rfl⟩ := List.mem_map.mp member
    by_cases hit : change.finds old = true
    · have equal : old = own :=
        List.inj_on_of_nodup_map distinct inside stored (((hits old inside).mp hit).trans same.symm)
      rw [if_pos hit, equal]
      exact ⟨rfl, named.2.2.symm, positive⟩
    · rw [if_neg hit] at mine
      exact absurd ((hits old inside).mpr mine) hit
  · rw [if_pos ((hits own stored).mpr same)]
    exact same

omit fresh in
theorem own_deleted (kind : change.kind = .delete) (empty : change.newMultiplicity = 0) :
    ∃ after, applyOwnChange entries nextRowId row change = .ok after ∧
      OwnApplied row change.newMultiplicity change.counts nextRowId entries after := by
  have hits := finds_iff row behind distinct own found named
  have gone : ∀ entry ∈ entries.filter (fun entry => !change.finds entry), entry ∈ entries ∧ entry.row ≠ row := by
    intro entry member
    obtain ⟨inside, kept⟩ := List.mem_filter.mp member
    refine ⟨inside, fun same => ?_⟩
    rw [(hits entry inside).mpr same] at kept
    cases kept
  refine ⟨entries.filter fun entry => !change.finds entry, ?_, behind_filter _ none entries behind, ?_, ?_, ?_, ?_, ?_, ?_⟩
  · unfold applyOwnChange
    rw [kind]
    simp only [finds_any row behind distinct own found named]
    rfl
  · exact distinct.sublist (List.filter_sublist.map Entry.row)
  · intro entry member
    have known := identified entry (gone entry member).1
    omega
  · exact fun entry member _ => (gone entry member).1
  · intro entry member different
    refine List.mem_filter.mpr ⟨member, ?_⟩
    rw [Bool.not_eq_true', ← Bool.not_eq_true]
    exact fun hit => different ((hits entry member).mp hit)
  · exact fun entry member same => absurd same (gone entry member).2
  · intro positive
    omega

end

end

end

end Shiba.Join
