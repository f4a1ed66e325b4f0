import Shiba.Library.Recency
import Shiba.Execution.Admission

set_option autoImplicit false

namespace Shiba.Runtime

open Shiba.Execution (u64Max)

section

variable {K V : Type} [DecidableEq K]

structure CachedValue (V : Type) where
  value : V
  lastUsed : Nat
deriving DecidableEq, Repr

-- The HashMap is its entries in the order it iterates them.
structure DeterministicLru (K V : Type) where
  entries : List (K × CachedValue V)
  capacity : Nat
  accessSequence : Nat
deriving DecidableEq, Repr

inductive LruOp (K V : Type) where
  | get (key : K)
  | getMut (key : K) (change : V → V)
  | insert (key : K) (value : V)
  | remove (key : K)
  | setCapacity (capacity : Nat)

inductive LruReply (K V : Type) where
  | value (found : Option V)
  | evicted (entries : List (K × V))
deriving DecidableEq, Repr

def cachedAt (entries : List (K × CachedValue V)) (key : K) : Option (CachedValue V) :=
  (entries.find? fun entry => entry.1 = key).map Prod.snd

-- `entries.get_mut(key)` and what is done to the value it finds.
def updateCached (entries : List (K × CachedValue V)) (key : K) (change : CachedValue V → CachedValue V) :
    List (K × CachedValue V) :=
  entries.map fun entry => if entry.1 = key then (entry.1, change entry.2) else entry

def removeCached (entries : List (K × CachedValue V)) (key : K) : List (K × CachedValue V) :=
  entries.filter fun entry => entry.1 ≠ key

def stampCached (entries : List (K × CachedValue V)) (key : K) (lastUsed : Nat) : List (K × CachedValue V) :=
  updateCached entries key fun cached => { cached with lastUsed }

namespace DeterministicLru

def new (capacity : Nat) : Except Fault (DeterministicLru K V) := do
  refuse (decide (capacity = 0)) "LRU capacity must be positive"
  return ⟨[], capacity, 0⟩

-- Every stamp becomes its place in the order of the stamps.
def normalizeStamps (entries : List (K × CachedValue V)) : List (K × CachedValue V) :=
  let recency := (entries.map fun entry => (entry.1, entry.2.lastUsed)).insertionSort fun a b => a.2 ≤ b.2
  recency.zipIdx.foldl (fun entries item => stampCached entries item.1.1 (item.2 + 1)) entries

def nextSequence (cache : DeterministicLru K V) : Except Fault (DeterministicLru K V × Nat) := do
  let cache :=
    if cache.accessSequence = u64Max then
      { cache with entries := normalizeStamps cache.entries, accessSequence := cache.entries.length }
    else cache
  refuse (decide (u64Max ≤ cache.accessSequence)) "attempt to add with overflow"
  return ({ cache with accessSequence := cache.accessSequence + 1 }, cache.accessSequence + 1)

def leastRecent (entries : List (K × CachedValue V)) : Option (K × CachedValue V) :=
  (entries.map fun entry => entry.2.lastUsed).min?.bind fun least => entries.find? fun entry => entry.2.lastUsed = least

-- One entry goes in every round of the loop.
def evictLoop (capacity : Nat) : Nat → List (K × CachedValue V) → List (K × CachedValue V) × List (K × V)
  | 0, entries => (entries, [])
  | rounds + 1, entries =>
      if capacity < entries.length then
        match leastRecent entries with
        | none => (entries, [])
        | some oldest =>
            let (kept, evicted) := evictLoop capacity rounds (removeCached entries oldest.1)
            (kept, (oldest.1, oldest.2.value) :: evicted)
      else (entries, [])

def evictToCapacity (cache : DeterministicLru K V) : DeterministicLru K V × List (K × V) :=
  let (kept, evicted) := evictLoop cache.capacity cache.entries.length cache.entries
  ({ cache with entries := kept }, evicted)

def getMut (cache : DeterministicLru K V) (key : K) (change : V → V) : Except Fault (DeterministicLru K V × Option V) := do
  let (cache, sequence) ← cache.nextSequence
  match cachedAt cache.entries key with
  | none => return (cache, none)
  | some cached =>
      return ({ cache with
        entries := updateCached cache.entries key fun _ => (⟨change cached.value, sequence⟩ : CachedValue V) },
        some cached.value)

def get (cache : DeterministicLru K V) (key : K) : Except Fault (DeterministicLru K V × Option V) :=
  cache.getMut key id

def insert (cache : DeterministicLru K V) (key : K) (value : V) :
    Except Fault (DeterministicLru K V × List (K × V)) := do
  let (cache, sequence) ← cache.nextSequence
  let entries := removeCached cache.entries key ++ [(key, (⟨value, sequence⟩ : CachedValue V))]
  return evictToCapacity { cache with entries }

def remove (cache : DeterministicLru K V) (key : K) : DeterministicLru K V × Option V :=
  ({ cache with entries := removeCached cache.entries key }, (cachedAt cache.entries key).map CachedValue.value)

def setCapacity (cache : DeterministicLru K V) (capacity : Nat) : Except Fault (DeterministicLru K V × List (K × V)) := do
  refuse (decide (capacity = 0)) "LRU capacity must be positive"
  return evictToCapacity { cache with capacity }

def step (cache : DeterministicLru K V) : LruOp K V → Except Fault (DeterministicLru K V × LruReply K V)
  | .get key => (cache.get key).map fun (cache, found) => (cache, .value found)
  | .getMut key change => (cache.getMut key change).map fun (cache, found) => (cache, .value found)
  | .insert key value => (cache.insert key value).map fun (cache, evicted) => (cache, .evicted evicted)
  | .remove key => .ok ((cache.remove key).1, .value (cache.remove key).2)
  | .setCapacity capacity => (cache.setCapacity capacity).map fun (cache, evicted) => (cache, .evicted evicted)

end DeterministicLru

end

open DeterministicLru

variable {K V : Type} [DecidableEq K]

-- The entries in the order of their stamps, which are all different.
structure Stamped (entries ordered : List (K × CachedValue V)) (clock : Nat) : Prop where
  same : ordered.Perm entries
  rising : ordered.Pairwise fun a b => a.2.lastUsed < b.2.lastUsed
  unique : (ordered.map Prod.fst).Nodup
  within : ∀ entry ∈ ordered, entry.2.lastUsed ≤ clock

def plain (ordered : List (K × CachedValue V)) : List (K × V) := ordered.map fun entry => (entry.1, entry.2.value)

omit [DecidableEq K] in
theorem plain_keys (ordered : List (K × CachedValue V)) : (plain ordered).map Prod.fst = ordered.map Prod.fst := by
  rw [plain, List.map_map]
  rfl

theorem plain_without (ordered : List (K × CachedValue V)) (key : K) :
    Recency.without (plain ordered) key = plain (removeCached ordered key) := by
  rw [Recency.without, plain, List.filter_map]
  rfl

section Stamps

variable {entries ordered : List (K × CachedValue V)} {clock : Nat}

theorem cached_at_iff (unique : (entries.map Prod.fst).Nodup) (key : K) (cached : CachedValue V) :
    cachedAt entries key = some cached ↔ (key, cached) ∈ entries := by
  constructor
  · intro hit
    obtain ⟨entry, found, rfl⟩ := Option.map_eq_some_iff.mp hit
    have named : entry.1 = key := by simpa using List.find?_some found
    rw [← named]
    exact List.mem_of_find?_eq_some found
  · intro member
    cases found : entries.find? (fun entry => entry.1 = key) with
    | none =>
        have absent := List.find?_eq_none.mp found (key, cached) member
        simp at absent
    | some entry =>
        have named : entry.1 = key := by simpa using List.find?_some found
        have same := List.inj_on_of_nodup_map unique (List.mem_of_find?_eq_some found) member named
        rw [cachedAt, found, same]
        rfl

variable (stamped : Stamped entries ordered clock)

include stamped

omit [DecidableEq K] in
theorem stamped_unique : (entries.map Prod.fst).Nodup := (stamped.same.map Prod.fst).nodup_iff.mp stamped.unique

-- The iteration order does not show in what a key finds.
theorem cached_at_plain (key : K) : (cachedAt entries key).map CachedValue.value = Recency.find (plain ordered) key := by
  have plainUnique : ((plain ordered).map Prod.fst).Nodup := by
    rw [plain_keys]
    exact stamped.unique
  cases hit : cachedAt entries key with
  | none =>
      have missed : (plain ordered).find? (fun item => item.1 = key) = none := by
        apply List.find?_eq_none.mpr
        intro item member
        obtain ⟨entry, inside, rfl⟩ := List.mem_map.mp member
        simp only [decide_eq_true_eq]
        intro named
        have found := (cached_at_iff (stamped_unique stamped) key entry.2).mpr (named ▸ stamped.same.subset inside)
        rw [hit] at found
        cases found
      rw [Recency.find, missed]
      rfl
  | some cached =>
      have member := (cached_at_iff (stamped_unique stamped) key cached).mp hit
      have inside : (key, cached.value) ∈ plain ordered :=
        List.mem_map.mpr ⟨(key, cached), stamped.same.symm.subset member, rfl⟩
      cases found : (plain ordered).find? (fun item => item.1 = key) with
      | none =>
          have absent := List.find?_eq_none.mp found (key, cached.value) inside
          simp at absent
      | some item =>
          have named : item.1 = key := by simpa using List.find?_some found
          have same := List.inj_on_of_nodup_map plainUnique (List.mem_of_find?_eq_some found) inside named
          rw [Recency.find, found, same]
          rfl

theorem stamped_without (key : K) : Stamped (removeCached entries key) (removeCached ordered key) clock where
  same := stamped.same.filter _
  rising := stamped.rising.filter _
  unique := (List.filter_sublist.map Prod.fst).nodup stamped.unique
  within := fun entry member => stamped.within entry (List.mem_filter.mp member).1

-- A stamp later than every other makes its key the last.
theorem stamped_last (key : K) (value : V) (sequence : Nat) (later : clock < sequence) :
    Stamped (removeCached entries key ++ [(key, ⟨value, sequence⟩)]) (removeCached ordered key ++ [(key, ⟨value, sequence⟩)])
      sequence := by
  have rest := stamped_without stamped key
  refine ⟨rest.same.append_right _, ?_, ?_, ?_⟩
  · apply List.pairwise_append.mpr
    refine ⟨rest.rising, List.pairwise_singleton _ _, ?_⟩
    intro entry member last isLast
    rw [List.mem_singleton.mp isLast]
    exact Nat.lt_of_le_of_lt (rest.within entry member) later
  · rw [List.map_append]
    apply List.nodup_append.mpr
    refine ⟨rest.unique, List.nodup_singleton _, ?_⟩
    intro other member last isLast same
    obtain ⟨entry, kept, rfl⟩ := List.mem_map.mp member
    rw [List.map_singleton, List.mem_singleton] at isLast
    exact of_decide_eq_true (List.mem_filter.mp kept).2 (same.trans isLast)
  · intro entry member
    rcases List.mem_append.mp member with kept | last
    · exact Nat.le_of_lt (Nat.lt_of_le_of_lt (rest.within entry kept) later)
    · rw [List.mem_singleton.mp last]

omit [DecidableEq K] in
-- The entry that goes first is the first in the order of the stamps.
theorem least_recent_head (oldest : K × CachedValue V) (rest : List (K × CachedValue V)) (heads : ordered = oldest :: rest) :
    leastRecent entries = some oldest := by
  subst heads
  have lowest : ∀ entry ∈ entries, oldest.2.lastUsed ≤ entry.2.lastUsed := by
    intro entry member
    rcases List.mem_cons.mp (stamped.same.symm.subset member) with rfl | later
    · exact Nat.le_refl _
    · exact Nat.le_of_lt ((List.pairwise_cons.mp stamped.rising).1 entry later)
  have inside : oldest ∈ entries := stamped.same.subset List.mem_cons_self
  have least : (entries.map fun entry => entry.2.lastUsed).min? = some oldest.2.lastUsed := by
    apply List.min?_eq_some_iff.mpr
    refine ⟨List.mem_map.mpr ⟨oldest, inside, rfl⟩, ?_⟩
    intro stamp member
    obtain ⟨entry, isEntry, rfl⟩ := List.mem_map.mp member
    exact lowest entry isEntry
  rw [leastRecent, least, Option.bind_some]
  cases found : entries.find? (fun entry => entry.2.lastUsed = oldest.2.lastUsed) with
  | none =>
      have absent := List.find?_eq_none.mp found oldest inside
      simp at absent
  | some entry =>
      have level : entry.2.lastUsed = oldest.2.lastUsed := by simpa using List.find?_some found
      rcases List.mem_cons.mp (stamped.same.symm.subset (List.mem_of_find?_eq_some found)) with rfl | later
      · rfl
      · have beyond := (List.pairwise_cons.mp stamped.rising).1 entry later
        omega

end Stamps

theorem removed_head (oldest : K × CachedValue V) (rest : List (K × CachedValue V))
    (unique : ((oldest :: rest).map Prod.fst).Nodup) : removeCached (oldest :: rest) oldest.1 = rest := by
  have absent : oldest.1 ∉ rest.map Prod.fst := (List.nodup_cons.mp unique).1
  rw [removeCached, List.filter_cons_of_neg (by simp)]
  apply List.filter_eq_self.mpr
  intro entry member
  simp only [decide_eq_true_eq]
  intro same
  exact absent (same ▸ List.mem_map_of_mem member)

-- Evicting to a capacity takes as many entries as are too many, in their order.
theorem evict_loop_ok (capacity rounds clock : Nat) (entries ordered : List (K × CachedValue V))
    (stamped : Stamped entries ordered clock) (enough : ordered.length ≤ rounds + capacity) : ∃ kept,
      evictLoop capacity rounds entries = (kept, plain (ordered.take (ordered.length - capacity))) ∧
      Stamped kept (ordered.drop (ordered.length - capacity)) clock := by
  induction rounds generalizing entries ordered with
  | zero =>
      have fits : ordered.length - capacity = 0 := by omega
      rw [fits]
      exact ⟨entries, rfl, stamped⟩
  | succ rounds ih =>
      have length := stamped.same.length_eq
      by_cases full : capacity < entries.length
      · cases ordered with
        | nil => simp at length; omega
        | cons oldest rest =>
            have first := least_recent_head stamped oldest rest rfl
            have others := stamped_without stamped oldest.1
            rw [removed_head oldest rest stamped.unique] at others
            rw [List.length_cons] at enough length
            obtain ⟨kept, looped, remains⟩ := ih (removeCached entries oldest.1) rest others (by omega)
            have more : (oldest :: rest).length - capacity = rest.length - capacity + 1 := by
              rw [List.length_cons]
              omega
            refine ⟨kept, ?_, ?_⟩
            · rw [evictLoop, if_pos full, first]
              simp only
              rw [looped, more, List.take_succ_cons]
              rfl
            · rwa [more, List.drop_succ_cons]
      · have fits : ordered.length - capacity = 0 := by omega
        rw [fits, evictLoop, if_neg full]
        exact ⟨entries, rfl, stamped⟩

-- The entries with their places for stamps.
def numbered : List (K × CachedValue V) → Nat → List (K × CachedValue V)
  | [], _ => []
  | entry :: rest, place => (entry.1, ⟨entry.2.value, place + 1⟩) :: numbered rest (place + 1)

section

variable (change : CachedValue V → CachedValue V) (ordered : List (K × CachedValue V)) (place : Nat)

omit [DecidableEq K] in
theorem numbered_keys :
    (numbered ordered place).map Prod.fst = ordered.map Prod.fst := by
  induction ordered generalizing place with
  | nil => rfl
  | cons entry rest ih => rw [numbered, List.map_cons, List.map_cons, ih]

omit [DecidableEq K] in
theorem numbered_plain : plain (numbered ordered place) = plain ordered := by
  induction ordered generalizing place with
  | nil => rfl
  | cons entry rest ih =>
      have tail := ih (place + 1)
      unfold plain at tail ⊢
      rw [numbered, List.map_cons, List.map_cons, tail]

omit [DecidableEq K] in
theorem numbered_stamps :
    ∀ entry ∈ numbered ordered place, place < entry.2.lastUsed ∧ entry.2.lastUsed ≤ place + ordered.length := by
  induction ordered generalizing place with
  | nil =>
      intro entry member
      cases member
  | cons head rest ih =>
      intro entry member
      rw [List.length_cons]
      rcases List.mem_cons.mp member with rfl | later
      · exact ⟨Nat.lt_succ_self place, by simp only; omega⟩
      · have bounds := ih (place + 1) entry later
        omega

omit [DecidableEq K] in
theorem numbered_rising :
    (numbered ordered place).Pairwise fun a b => a.2.lastUsed < b.2.lastUsed := by
  induction ordered generalizing place with
  | nil => exact List.Pairwise.nil
  | cons head rest ih =>
      apply List.pairwise_cons.mpr
      exact ⟨fun entry later => (numbered_stamps rest (place + 1) entry later).1, ih (place + 1)⟩

theorem update_absent {entries : List (K × CachedValue V)} {key : K} (absent : key ∉ entries.map Prod.fst) :
    updateCached entries key change = entries := by
  rw [updateCached]
  conv_rhs => rw [← List.map_id entries]
  apply List.map_congr_left
  intro entry member
  apply if_neg
  intro same
  exact absent (same ▸ List.mem_map_of_mem member)

theorem update_here {passed rest : List (K × CachedValue V)} {entry : K × CachedValue V}
    (unique : ((passed ++ entry :: rest).map Prod.fst).Nodup) :
    updateCached (passed ++ entry :: rest) entry.1 change = passed ++ (entry.1, change entry.2) :: rest := by
  rw [List.map_append, List.map_cons, List.nodup_append] at unique
  obtain ⟨_, others, apart⟩ := unique
  have before : entry.1 ∉ passed.map Prod.fst := fun member => apart entry.1 member entry.1 List.mem_cons_self rfl
  have first := update_absent change before
  have second := update_absent change (List.nodup_cons.mp others).1
  unfold updateCached at first second ⊢
  rw [List.map_append, List.map_cons, if_pos rfl, first, second]

end

-- Stamping the entries one after another with their places.
theorem stamps_in_order (passed ordered : List (K × CachedValue V)) (place : Nat)
    (unique : ((passed ++ ordered).map Prod.fst).Nodup) :
    ((ordered.map fun entry => (entry.1, entry.2.lastUsed)).zipIdx place).foldl
      (fun entries item => stampCached entries item.1.1 (item.2 + 1)) (passed ++ ordered) =
        passed ++ numbered ordered place := by
  induction ordered generalizing passed place with
  | nil => rfl
  | cons entry rest ih =>
      have here := update_here (fun cached => { cached with lastUsed := place + 1 }) unique
      rw [List.map_cons, List.zipIdx_cons, List.foldl_cons, stampCached, here]
      have moved : passed ++ (entry.1, { entry.2 with lastUsed := place + 1 }) :: rest =
          (passed ++ [(entry.1, { entry.2 with lastUsed := place + 1 })]) ++ rest := by
        rw [List.append_assoc]
        rfl
      rw [moved, ih, numbered, List.append_assoc]
      · rfl
      · rw [← moved, List.map_append, List.map_cons]
        rwa [List.map_append, List.map_cons] at unique

theorem fold_same (items : List ((K × Nat) × Nat)) (entries ordered : List (K × CachedValue V)) (same : ordered.Perm entries) :
    (items.foldl (fun entries item => stampCached entries item.1.1 (item.2 + 1)) ordered).Perm
      (items.foldl (fun entries item => stampCached entries item.1.1 (item.2 + 1)) entries) := by
  induction items generalizing entries ordered with
  | nil => exact same
  | cons item rest ih => exact ih _ _ (same.map _)

-- Renormalised entries keep their order, and their stamps are their places in it.
theorem normalize_stamped {entries ordered : List (K × CachedValue V)} {clock : Nat} (stamped : Stamped entries ordered clock) :
    Stamped (normalizeStamps entries) (numbered ordered 0) entries.length := by
  have sorted : (entries.map fun entry => (entry.1, entry.2.lastUsed)).insertionSort (fun a b => a.2 ≤ b.2) =
      ordered.map fun entry => (entry.1, entry.2.lastUsed) := by
    have rising : (ordered.map fun entry => (entry.1, entry.2.lastUsed)).Pairwise fun a b => a.2 ≤ b.2 := by
      rw [List.pairwise_map]
      exact stamped.rising.imp Nat.le_of_lt
    have total : Std.Total fun a b : K × Nat => a.2 ≤ b.2 := ⟨fun a b => Nat.le_total a.2 b.2⟩
    have transitive : IsTrans (K × Nat) fun a b => a.2 ≤ b.2 := ⟨fun _ _ _ => Nat.le_trans⟩
    have sameSort := (List.perm_insertionSort (fun a b : K × Nat => a.2 ≤ b.2)
      (entries.map fun entry => (entry.1, entry.2.lastUsed))).trans (stamped.same.symm.map _)
    apply sameSort.eq_of_pairwise _ (List.pairwise_insertionSort _ _) rising
    intro a b first second below above
    have inside := sameSort.subset first
    obtain ⟨entry, isEntry, rfl⟩ := List.mem_map.mp inside
    obtain ⟨other, isOther, rfl⟩ := List.mem_map.mp second
    have apart : (ordered.map fun entry => entry.2.lastUsed).Nodup := by
      rw [List.Nodup, List.pairwise_map]
      exact stamped.rising.imp Nat.ne_of_lt
    rw [List.inj_on_of_nodup_map apart isEntry isOther (Nat.le_antisymm below above)]
  have stamps := stamps_in_order [] ordered 0 (by simpa using stamped.unique)
  rw [List.nil_append, List.nil_append] at stamps
  have fresh : (numbered ordered 0).Perm (normalizeStamps entries) := by
    rw [normalizeStamps, sorted, ← stamps]
    exact fold_same _ entries ordered stamped.same
  refine ⟨fresh, numbered_rising ordered 0, ?_, ?_⟩
  · rw [numbered_keys]
    exact stamped.unique
  · intro entry member
    have bounds := (numbered_stamps ordered 0 entry member).2
    rw [stamped.same.length_eq] at bounds
    omega

end Shiba.Runtime
