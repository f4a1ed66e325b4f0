import Mathlib.Tactic

set_option autoImplicit false

namespace SerialTable

universe u v

-- A relation whose primary key is drawn from a sequence. Keys are unique and
-- below the next value of the sequence, so an insertion is always fresh.
structure Table (ρ : Type u) (key : ρ → Nat) where
  rows : List ρ
  next : Nat
  below : ∀ row ∈ rows, key row < next
  nodup : (rows.map key).Nodup

namespace Table

variable {ρ : Type u} {key : ρ → Nat}

def empty (first : Nat) : Table ρ key := ⟨[], first, by simp, by simp⟩

def find? (table : Table ρ key) (id : Nat) : Option ρ := table.rows.find? (fun row => key row = id)

def insert (table : Table ρ key) (row : Nat → ρ) (keyed : ∀ id, key (row id) = id) : Table ρ key where
  rows := table.rows ++ [row table.next]
  next := table.next + 1
  below := by
    intro other member
    rcases List.mem_append.mp member with old | fresh
    · exact Nat.lt_succ_of_lt (table.below other old)
    · simp [List.mem_singleton.mp fresh, keyed]
  nodup := by
    rw [List.map_append, List.nodup_append]
    refine ⟨table.nodup, by simp, ?_⟩
    intro id old other fresh
    obtain ⟨row, member, rfl⟩ := List.mem_map.mp old
    have eq : other = table.next := by simpa [keyed] using fresh
    exact eq ▸ Nat.ne_of_lt (table.below row member)

-- UPDATE ... WHERE: rows outside the predicate are copied.
def updateWhere (table : Table ρ key) (matching : ρ → Bool) (change : ρ → ρ)
    (keeps : ∀ row, key (change row) = key row) : Table ρ key where
  rows := table.rows.map fun row => if matching row then change row else row
  next := table.next
  below := by
    intro other member
    obtain ⟨row, old, rfl⟩ := List.mem_map.mp member
    split
    · exact keeps row ▸ table.below row old
    · exact table.below row old
  nodup := by
    have same : (key ∘ fun row => if matching row then change row else row) = key := by
      funext row
      by_cases hit : matching row <;> simp [hit, keeps]
    rw [List.map_map, same]
    exact table.nodup

def update (table : Table ρ key) (id : Nat) (change : ρ → ρ)
    (keeps : ∀ row, key (change row) = key row) : Table ρ key :=
  table.updateWhere (fun row => key row = id) change keeps

-- DELETE ... WHERE: the sequence does not go back, so a key is never used again.
def deleteWhere (table : Table ρ key) (matching : ρ → Bool) : Table ρ key where
  rows := table.rows.filter fun row => !matching row
  next := table.next
  below := fun row member => table.below row (List.mem_of_mem_filter member)
  nodup := table.nodup.sublist (List.filter_sublist.map key)

def Fits (table : Table ρ key) (row : ρ) : Prop := key row < table.next ∧ key row ∉ table.rows.map key

instance (table : Table ρ key) (row : ρ) : Decidable (table.Fits row) := by
  unfold Fits
  infer_instance

-- The table with a deleted row put back under its old key.
def putBack (table : Table ρ key) (row : ρ) : Table ρ key :=
  if fits : table.Fits row then
    { rows := table.rows ++ [row]
      next := table.next
      below := by
        intro other member
        rcases List.mem_append.mp member with old | last
        · exact table.below other old
        · exact List.mem_singleton.mp last ▸ fits.1
      nodup := by
        rw [List.map_append, List.map_singleton]
        simpa using List.Nodup.concat fits.2 table.nodup }
  else table

def total (table : Table ρ key) (weight : ρ → Nat) : Nat := (table.rows.map weight).sum

variable (table : Table ρ key) (matching : ρ → Bool) (change : ρ → ρ) (keeps : ∀ row, key (change row) = key row)
  (weight : ρ → Nat)

theorem mem_of_find (id : Nat) (row : ρ) (found : table.find? id = some row) :
    row ∈ table.rows ∧ key row = id :=
  ⟨List.mem_of_find?_eq_some found, by simpa using List.find?_some found⟩

theorem row_unique (a b : ρ) (left : a ∈ table.rows) (right : b ∈ table.rows) (same : key a = key b) : a = b :=
  List.inj_on_of_nodup_map table.nodup left right same

theorem find_mem (row : ρ) (member : row ∈ table.rows) :
    table.find? (key row) = some row := by
  cases found : table.find? (key row) with
  | none =>
      have absent := List.find?_eq_none.mp found row member
      simp at absent
  | some other =>
      obtain ⟨otherMember, sameKey⟩ := mem_of_find table _ other found
      rw [row_unique table other row otherMember member sameKey]

theorem mem_insert (row : Nat → ρ) (keyed : ∀ id, key (row id) = id) (other : ρ) :
    other ∈ (table.insert row keyed).rows ↔ other ∈ table.rows ∨ other = row table.next := by
  simp [insert]

theorem mem_update_where (other : ρ) :
    other ∈ (table.updateWhere matching change keeps).rows ↔
      ∃ row ∈ table.rows, other = if matching row then change row else row := by
  simp only [updateWhere, List.mem_map]
  constructor
  · rintro ⟨row, member, rfl⟩
    exact ⟨row, member, rfl⟩
  · rintro ⟨row, member, rfl⟩
    exact ⟨row, member, rfl⟩

@[simp] theorem find_update (id : Nat) (change : ρ → ρ) (keeps : ∀ row, key (change row) = key row) (other : Nat) :
    (table.update id change keeps).find? other =
      if other = id then (table.find? id).map change else table.find? other := by
  obtain ⟨rows, next, below, nodup⟩ := table
  simp only [find?, update, updateWhere]
  clear below nodup
  induction rows with
  | nil => simp
  | cons row tail ih =>
      by_cases hit : key row = id
      · by_cases same : other = id
        · simp [hit, same, keeps]
        · have miss : ¬ key row = other := fun eq => same (eq.symm.trans hit)
          simpa [hit, same, keeps, miss, Ne.symm same] using ih
      · by_cases same : other = id
        · simpa [hit, same] using ih
        · by_cases now : key row = other
          · simp [now, same]
          · simpa [hit, now, same] using ih

theorem mem_update (id : Nat) (change : ρ → ρ) (keeps : ∀ row, key (change row) = key row) (other : ρ) :
    other ∈ (table.update id change keeps).rows ↔
      (other ∈ table.rows ∧ key other ≠ id) ∨ ∃ row ∈ table.rows, key row = id ∧ other = change row := by
  rw [update, mem_update_where]
  constructor
  · rintro ⟨row, member, rfl⟩
    by_cases hit : key row = id
    · exact .inr ⟨row, member, hit, by simp [hit]⟩
    · exact .inl (by simp [hit, member])
  · rintro (⟨member, miss⟩ | ⟨row, member, hit, rfl⟩)
    · exact ⟨other, member, by simp [miss]⟩
    · exact ⟨row, member, by simp [hit]⟩

theorem mem_delete_where (row : ρ) :
    row ∈ (table.deleteWhere matching).rows ↔ row ∈ table.rows ∧ matching row = false := by
  simp [deleteWhere]

theorem put_back_rows {table : Table ρ key} {row : ρ} (fits : table.Fits row) :
    (table.putBack row).rows = table.rows ++ [row] ∧ (table.putBack row).next = table.next := by
  unfold putBack
  rw [dif_pos fits]
  exact ⟨rfl, rfl⟩

theorem rows_ext (a b : Table ρ key) (rows : a.rows = b.rows) (next : a.next = b.next) : a = b := by
  obtain ⟨aRows, aNext, _, _⟩ := a
  obtain ⟨bRows, bNext, _, _⟩ := b
  cases rows
  cases next
  rfl

theorem find_put_back (row : ρ) (fits : table.Fits row) (id : Nat) (other : id ≠ key row) :
    (table.putBack row).find? id = table.find? id := by
  have absent : (decide (key row = id)) = false := decide_eq_false (Ne.symm other)
  rw [find?, (put_back_rows fits).1, List.find?_append, List.find?_singleton, absent]
  simp [find?]

theorem fits_update_where (keeps : ∀ row, key (change row) = key row) (row : ρ) :
    (table.updateWhere matching change keeps).Fits row ↔ table.Fits row := by
  have keys : (table.updateWhere matching change keeps).rows.map key = table.rows.map key := by
    rw [updateWhere, List.map_map]
    apply List.map_congr_left
    intro other _
    by_cases hit : matching other <;> simp [hit, keeps]
  unfold Fits
  rw [keys]
  rfl

-- An update that passes the row by commutes with putting it back.
theorem update_where_put_back (keeps : ∀ row, key (change row) = key row) (row : ρ) (fits : table.Fits row)
    (passed : matching row = false) :
    (table.putBack row).updateWhere matching change keeps = (table.updateWhere matching change keeps).putBack row := by
  have still := (fits_update_where table matching change keeps row).mpr fits
  apply rows_ext
  · rw [(put_back_rows still).1]
    change (table.putBack row).rows.map (fun row => if matching row then change row else row) = _
    rw [(put_back_rows fits).1, List.map_append]
    simp [updateWhere, passed]
  · rw [(put_back_rows still).2]
    exact (put_back_rows fits).2

theorem total_delete_where (nothing : ∀ row ∈ table.rows, matching row = true → weight row = 0) :
    (table.deleteWhere matching).total weight = table.total weight := by
  simp only [total, deleteWhere]
  generalize table.rows = rows at nothing
  induction rows with
  | nil => rfl
  | cons row rest ih =>
      have later := ih fun other member => nothing other (List.mem_cons_of_mem _ member)
      cases hit : matching row with
      | true =>
          rw [List.filter_cons_of_neg (by simp [hit]), List.map_cons, List.sum_cons, later,
            nothing row List.mem_cons_self hit, Nat.zero_add]
      | false => rw [List.filter_cons_of_pos (by simp [hit]), List.map_cons, List.map_cons, List.sum_cons, List.sum_cons, later]

theorem total_insert (row : Nat → ρ) (keyed : ∀ id, key (row id) = id) (weight : ρ → Nat) :
    (table.insert row keyed).total weight = table.total weight + weight (row table.next) := by
  simp [total, insert]

theorem sum_update_rows (rows : List ρ) (nodup : (rows.map key).Nodup) (change : ρ → ρ) (weight : ρ → Nat)
    (row : ρ) (member : row ∈ rows) :
    ((rows.map fun other => if key other = key row then change other else other).map weight).sum + weight row =
      (rows.map weight).sum + weight (change row) := by
  induction rows with
  | nil => simp at member
  | cons head tail ih =>
      obtain ⟨absent, rest⟩ := List.nodup_cons.mp nodup
      rcases List.mem_cons.mp member with rfl | later
      · have untouched : tail.map (fun other => if key other = key row then change other else other) = tail := by
          rw [List.map_congr_left, List.map_id]
          intro other present
          have different : key other ≠ key row := fun same =>
            absent (List.mem_map.mpr ⟨other, present, same⟩)
          simp [different]
        simp only [List.map_cons, if_pos, List.sum_cons, untouched]
        omega
      · have different : key head ≠ key row := fun same =>
          absent (List.mem_map.mpr ⟨row, later, same.symm⟩)
        have step := ih rest later
        simp only [List.map_cons, if_neg different, List.sum_cons]
        omega

theorem total_update (id : Nat) (change : ρ → ρ) (keeps : ∀ row, key (change row) = key row) (weight : ρ → Nat) (row : ρ)
    (found : table.find? id = some row) :
    (table.update id change keeps).total weight + weight row = table.total weight + weight (change row) := by
  obtain ⟨member, rfl⟩ := mem_of_find table id row found
  simpa [total, update, updateWhere] using sum_update_rows table.rows table.nodup change weight row member

theorem total_update_where :
    (table.updateWhere matching change keeps).total weight =
      table.total fun row => weight (if matching row then change row else row) := by
  simp [total, updateWhere, Function.comp_def]

theorem total_congr (left right : ρ → Nat) (agree : ∀ row ∈ table.rows, left row = right row) :
    table.total left = table.total right := by
  rw [total, total, List.map_congr_left agree]

end Table

end SerialTable
