import Shiba.Runtime.Recent

set_option autoImplicit false

namespace Shiba.Runtime

open Shiba.Execution (u64Max)
open DeterministicLru

variable {K V : Type} [DecidableEq K]

-- What each operation does to a cache ordered by last access.
def recencyStep (cache : Recency.Cache K V) : LruOp K V → Recency.Cache K V × LruReply K V
  | .get key => ((cache.visit key id).1, .value (cache.visit key id).2)
  | .getMut key change => ((cache.visit key change).1, .value (cache.visit key change).2)
  | .insert key value => ((cache.insert key value).1, .evicted (cache.insert key value).2)
  | .remove key => ((cache.remove key).1, .value (cache.remove key).2)
  | .setCapacity capacity => ((cache.resize capacity).1, .evicted (cache.resize capacity).2)

-- set_capacity asserts a positive capacity, and no map holds usize::MAX entries.
def LruOp.Takes : LruOp K V → Prop
  | .setCapacity capacity => 0 < capacity ∧ capacity < u64Max
  | _ => True

structure Refines (cache : DeterministicLru K V) (recency : Recency.Cache K V) : Prop where
  order : ∃ ordered, Stamped cache.entries ordered cache.accessSequence ∧ plain ordered = recency.items
  capacity : cache.capacity = recency.capacity
  positive : 0 < cache.capacity
  bounded : cache.capacity < u64Max
  sized : cache.entries.length ≤ cache.capacity
  clock : cache.accessSequence ≤ u64Max

-- Only the order in which the map iterates differs.
def Rehashed (cache other : DeterministicLru K V) : Prop :=
  ∃ entries, entries.Perm cache.entries ∧ other = { cache with entries }

section Refinement

variable (cache : DeterministicLru K V) (recency : Recency.Cache K V) (refines : Refines cache recency)

include refines

omit [DecidableEq K] in
theorem rehashed_refines (other : DeterministicLru K V) (rehashed : Rehashed cache other) : Refines other recency := by
  obtain ⟨entries, same, rfl⟩ := rehashed
  obtain ⟨ordered, stamped, items⟩ := refines.order
  refine ⟨⟨ordered, ?_, items⟩, refines.capacity, refines.positive, refines.bounded, ?_, refines.clock⟩
  · exact ⟨stamped.same.trans same.symm, stamped.rising, stamped.unique, stamped.within⟩
  · rw [same.length_eq]
    exact refines.sized

-- The next stamp is later than every other, whether the clock turned over or not.
theorem next_sequence_ok : ∃ entries ordered clock,
    cache.nextSequence = .ok ({ cache with entries, accessSequence := clock + 1 }, clock + 1) ∧
    Stamped entries ordered clock ∧ plain ordered = recency.items ∧ clock < u64Max ∧
    entries.length = cache.entries.length := by
  obtain ⟨ordered, stamped, items⟩ := refines.order
  unfold nextSequence
  by_cases full : cache.accessSequence = u64Max
  · have renewed := normalize_stamped stamped
    have fits : cache.entries.length < u64Max := Nat.lt_of_le_of_lt refines.sized refines.bounded
    refine ⟨normalizeStamps cache.entries, numbered ordered 0, cache.entries.length, ?_, renewed, ?_, fits, ?_⟩
    · simp only [if_pos full, refuse, decide_eq_false (Nat.not_le.mpr fits), Bool.false_eq_true, if_false, ok_bind]
      rfl
    · rw [numbered_plain, items]
    · have keys := congrArg List.length (numbered_keys ordered 0)
      rw [List.length_map, List.length_map] at keys
      rw [← renewed.same.length_eq, ← stamped.same.length_eq, keys]
  · have fits : cache.accessSequence < u64Max := Nat.lt_of_le_of_ne refines.clock full
    refine ⟨cache.entries, ordered, cache.accessSequence, ?_, stamped, items, fits, rfl⟩
    simp only [if_neg full, refuse, decide_eq_false (Nat.not_le.mpr fits), Bool.false_eq_true, if_false, ok_bind]
    rfl

end Refinement

omit [DecidableEq K] in
theorem plain_length (ordered : List (K × CachedValue V)) : (plain ordered).length = ordered.length := List.length_map _

-- Eviction trims the order.
theorem evict_refines (cache : DeterministicLru K V) (ordered : List (K × CachedValue V))
    (stamped : Stamped cache.entries ordered cache.accessSequence) (positive : 0 < cache.capacity)
    (bounded : cache.capacity < u64Max) (clock : cache.accessSequence ≤ u64Max) :
    Refines cache.evictToCapacity.1 (Recency.Cache.trim ⟨plain ordered, cache.capacity⟩).1 ∧
      cache.evictToCapacity.2 = (Recency.Cache.trim ⟨plain ordered, cache.capacity⟩).2 := by
  obtain ⟨kept, looped, remains⟩ := evict_loop_ok cache.capacity cache.entries.length cache.accessSequence cache.entries ordered
    stamped (by rw [stamped.same.length_eq]; exact Nat.le_add_right _ _)
  have evicted : cache.evictToCapacity =
      ({ cache with entries := kept }, plain (ordered.take (ordered.length - cache.capacity))) := by
    rw [evictToCapacity, looped]
  rw [evicted]
  refine ⟨⟨⟨_, remains, ?_⟩, rfl, positive, bounded, ?_, clock⟩, ?_⟩
  · rw [Recency.Cache.trim]
    simp only [plain_length]
    exact List.map_drop
  · have length := remains.same.length_eq
    rw [List.length_drop] at length
    simp only
    omega
  · rw [Recency.Cache.trim]
    simp only [plain_length]
    exact List.map_take

-- The stamped entry of a key moves to the end.
theorem update_last {entries ordered : List (K × CachedValue V)} {clock sequence : Nat} (stamped : Stamped entries ordered clock)
    (later : clock < sequence) {key : K} (value : V) (present : key ∈ entries.map Prod.fst) :
    Stamped (updateCached entries key fun _ => ⟨value, sequence⟩)
      (removeCached ordered key ++ [(key, ⟨value, sequence⟩)]) sequence := by
  have last := stamped_last stamped key value sequence later
  refine ⟨?_, last.rising, last.unique, last.within⟩
  obtain ⟨entry, member, rfl⟩ := List.mem_map.mp present
  obtain ⟨before, after, split⟩ := List.append_of_mem member
  have unique := stamped_unique stamped
  have moved := update_here (fun _ => ⟨value, sequence⟩) (split ▸ unique)
  have removed : removeCached entries entry.1 = before ++ after := by
    have keys := split ▸ unique
    rw [List.map_append, List.map_cons, List.nodup_append] at keys
    obtain ⟨_, others, apart⟩ := keys
    have first : removeCached before entry.1 = before := by
      apply List.filter_eq_self.mpr
      intro other inside
      exact decide_eq_true (apart other.1 (List.mem_map_of_mem inside) entry.1 List.mem_cons_self)
    have second : removeCached after entry.1 = after := by
      apply List.filter_eq_self.mpr
      intro other inside
      apply decide_eq_true
      intro same
      exact (List.nodup_cons.mp others).1 (same ▸ List.mem_map_of_mem inside)
    unfold removeCached at first second ⊢
    rw [split, List.filter_append, List.filter_cons_of_neg (by simp), first, second]
  rw [split, moved]
  apply last.same.trans
  rw [removed, List.append_assoc]
  exact (List.perm_append_singleton _ after).append_left before

section Steps

variable {cache : DeterministicLru K V} {recency : Recency.Cache K V} (refines : Refines cache recency)

include refines

theorem get_mut_refines (key : K) (change : V → V) : ∃ after,
    cache.getMut key change = .ok (after, (recency.visit key change).2) ∧ Refines after (recency.visit key change).1 := by
  obtain ⟨entries, ordered, clock, next, stamped, items, fits, length⟩ := next_sequence_ok cache recency refines
  have found := cached_at_plain stamped key
  rw [items] at found
  unfold getMut
  rw [next, ok_bind]
  simp only
  cases hit : cachedAt entries key with
  | none =>
      rw [hit] at found
      rw [Recency.Cache.visit, ← found]
      refine ⟨_, rfl, ⟨ordered, ?_, items⟩, refines.capacity, refines.positive, refines.bounded, ?_, fits⟩
      · exact ⟨stamped.same, stamped.rising, stamped.unique, fun entry member => Nat.le_succ_of_le (stamped.within entry member)⟩
      · simp only [length]
        exact refines.sized
  | some cached =>
      rw [hit] at found
      rw [Recency.Cache.visit, ← found]
      have member := (cached_at_iff (stamped_unique stamped) key cached).mp hit
      have moved := update_last stamped (Nat.lt_succ_self clock) (change cached.value) (List.mem_map_of_mem member)
      refine ⟨_, rfl, ⟨_, moved, ?_⟩, refines.capacity, refines.positive, refines.bounded, ?_, fits⟩
      · simp only [Option.map_some, Recency.Cache.use]
        rw [← items, plain_without, plain, List.map_append]
        rfl
      · simp only [updateCached, List.length_map, length]
        exact refines.sized

theorem insert_refines (key : K) (value : V) : ∃ after,
    cache.insert key value = .ok (after, (recency.insert key value).2) ∧ Refines after (recency.insert key value).1 := by
  obtain ⟨entries, ordered, clock, next, stamped, items, fits, _⟩ := next_sequence_ok cache recency refines
  have moved := stamped_last stamped key value (clock + 1) (Nat.lt_succ_self clock)
  obtain ⟨kept, evicted⟩ := evict_refines
    ⟨removeCached entries key ++ [(key, ⟨value, clock + 1⟩)], cache.capacity, clock + 1⟩ _ moved refines.positive refines.bounded
    fits
  have used : (⟨plain (removeCached ordered key ++ [(key, ⟨value, clock + 1⟩)]), cache.capacity⟩ : Recency.Cache K V) =
      recency.use key value := by
    rw [Recency.Cache.use, ← items, plain_without, plain, List.map_append, refines.capacity]
    rfl
  rw [used] at kept evicted
  refine ⟨_, ?_, kept⟩
  unfold DeterministicLru.insert
  rw [next, ok_bind]
  exact congrArg Except.ok (Prod.ext rfl evicted)

theorem remove_refines (key : K) : (cache.remove key).2 = (recency.remove key).2 ∧
    Refines (cache.remove key).1 (recency.remove key).1 := by
  obtain ⟨ordered, stamped, items⟩ := refines.order
  have found := cached_at_plain stamped key
  rw [items] at found
  refine ⟨found, ⟨_, stamped_without stamped key, ?_⟩, refines.capacity,
    refines.positive, refines.bounded, Nat.le_trans (List.length_filter_le _ _) refines.sized, refines.clock⟩
  rw [← plain_without, items]
  rfl

theorem set_capacity_refines (capacity : Nat) (positive : 0 < capacity) (bounded : capacity < u64Max) : ∃ after,
    cache.setCapacity capacity = .ok (after, (recency.resize capacity).2) ∧ Refines after (recency.resize capacity).1 := by
  obtain ⟨ordered, stamped, items⟩ := refines.order
  obtain ⟨kept, evicted⟩ := evict_refines { cache with capacity } ordered stamped positive bounded refines.clock
  rw [items] at kept evicted
  refine ⟨_, ?_, kept⟩
  unfold setCapacity
  simp only [refuse, decide_eq_false (Nat.ne_of_gt positive), Bool.false_eq_true, if_false, ok_bind]
  exact congrArg Except.ok (Prod.ext rfl evicted)

-- Every operation answers as the cache ordered by last access does.
theorem step_refines (op : LruOp K V) (takes : op.Takes) : ∃ after,
    cache.step op = .ok (after, (recencyStep recency op).2) ∧ Refines after (recencyStep recency op).1 := by
  cases op with
  | get key =>
      obtain ⟨after, served, refines⟩ := get_mut_refines refines key id
      refine ⟨after, ?_, refines⟩
      rw [step, DeterministicLru.get, served]
      rfl
  | getMut key change =>
      obtain ⟨after, served, refines⟩ := get_mut_refines refines key change
      refine ⟨after, ?_, refines⟩
      rw [step, served]
      rfl
  | insert key value =>
      obtain ⟨after, served, refines⟩ := insert_refines refines key value
      refine ⟨after, ?_, refines⟩
      rw [step, served]
      rfl
  | remove key =>
      obtain ⟨found, refines⟩ := remove_refines refines key
      refine ⟨_, ?_, refines⟩
      rw [step, found]
      rfl
  | setCapacity capacity =>
      obtain ⟨after, served, refines⟩ := set_capacity_refines refines capacity takes.1 takes.2
      refine ⟨after, ?_, refines⟩
      rw [step, served]
      rfl

end Steps

-- A run of operations with their replies. The map may iterate in another order
-- at every one of them.
inductive LruRun : DeterministicLru K V → List (LruOp K V × LruReply K V) → DeterministicLru K V → Prop where
  | here (cache : DeterministicLru K V) : LruRun cache [] cache
  | next (cache other after last : DeterministicLru K V) (op : LruOp K V) (reply : LruReply K V)
      (trace : List (LruOp K V × LruReply K V)) (rehashed : Rehashed cache other)
      (stepped : other.step op = .ok (after, reply)) (later : LruRun after trace last) :
      LruRun cache ((op, reply) :: trace) last

def recencyRun (cache : Recency.Cache K V) : List (LruOp K V) → Recency.Cache K V × List (LruReply K V)
  | [] => (cache, [])
  | op :: rest =>
      let (next, reply) := recencyStep cache op
      let (last, replies) := recencyRun next rest
      (last, reply :: replies)

section

variable (cache : DeterministicLru K V) (recency : Recency.Cache K V)

theorem run_refines (last : DeterministicLru K V) (recency : Recency.Cache K V) (refines : Refines cache recency)
    (trace : List (LruOp K V × LruReply K V)) (ran : LruRun cache trace last) (takes : ∀ item ∈ trace, item.1.Takes) :
    trace.map Prod.snd = (recencyRun recency (trace.map Prod.fst)).2 ∧
      Refines last (recencyRun recency (trace.map Prod.fst)).1 := by
  induction ran generalizing recency with
  | here cache => exact ⟨rfl, refines⟩
  | next cache other after last op reply trace rehashed stepped later ih =>
      have again := rehashed_refines cache recency refines other rehashed
      obtain ⟨served, ok, onward⟩ := step_refines again op (takes _ List.mem_cons_self)
      obtain ⟨rfl, rfl⟩ := Prod.mk.inj (Except.ok.inj (stepped.symm.trans ok))
      obtain ⟨replies, final⟩ := ih (recencyStep recency op).1 onward fun item member => takes item (List.mem_cons_of_mem _ member)
      exact ⟨congrArg (List.cons _) replies, final⟩

-- What holds of a cache wherever its run has taken it.
structure LruExact (cache : DeterministicLru K V) (recency : Recency.Cache K V) : Prop where
  cached : ∀ key, (cachedAt cache.entries key).map CachedValue.value = Recency.find recency.items key
  sized : cache.entries.length ≤ cache.capacity
  capacity : cache.capacity = recency.capacity
  serves : ∀ other, Rehashed cache other → ∀ op : LruOp K V, op.Takes →
    ∃ after, other.step op = .ok (after, (recencyStep recency op).2)
  kept : ∀ other, Rehashed cache other → ∀ key value after evicted, other.insert key value = .ok (after, evicted) →
    (cachedAt after.entries key).map CachedValue.value = some value ∧ key ∉ evicted.map Prod.fst

theorem refines_cached (refines : Refines cache recency) (key : K) :
    (cachedAt cache.entries key).map CachedValue.value = Recency.find recency.items key := by
  obtain ⟨ordered, stamped, items⟩ := refines.order
  rw [cached_at_plain stamped key, items]

theorem refines_exact (refines : Refines cache recency) :
    LruExact cache recency := by
  refine ⟨refines_cached cache recency refines, refines.sized, refines.capacity, ?_, ?_⟩
  · intro other rehashed op takes
    obtain ⟨after, served, _⟩ := step_refines (rehashed_refines cache recency refines other rehashed) op takes
    exact ⟨after, served⟩
  · intro other rehashed key value after evicted inserted
    obtain ⟨expected, ok, onward⟩ := insert_refines (rehashed_refines cache recency refines other rehashed) key value
    obtain ⟨rfl, rfl⟩ := Prod.mk.inj (Except.ok.inj (inserted.symm.trans ok))
    have positive : 0 < recency.capacity := refines.capacity ▸ refines.positive
    obtain ⟨found, stays⟩ := Recency.insert_kept recency key value positive
    exact ⟨(refines_cached _ _ onward key).trans found, stays⟩

end

omit [DecidableEq K] in
-- A cache that holds nothing yet, with its clock anywhere.
theorem empty_refines (capacity clock : Nat) (positive : 0 < capacity) (bounded : capacity < u64Max) (ticks : clock ≤ u64Max) :
    Refines (⟨[], capacity, clock⟩ : DeterministicLru K V) ⟨[], capacity⟩ := by
  refine ⟨⟨[], ⟨List.Perm.refl [], List.Pairwise.nil, List.nodup_nil, ?_⟩, rfl⟩, rfl, positive, bounded, Nat.zero_le _, ticks⟩
  intro entry member
  cases member

-- The cache answers and evicts as one ordered by last access, wherever its clock
-- turns over.
theorem lru_refines (capacity clock : Nat) (positive : 0 < capacity) (bounded : capacity < u64Max) (ticks : clock ≤ u64Max)
    (trace : List (LruOp K V × LruReply K V)) (last : DeterministicLru K V) (takes : ∀ item ∈ trace, item.1.Takes)
    (ran : LruRun ⟨[], capacity, clock⟩ trace last) :
    trace.map Prod.snd = (recencyRun ⟨[], capacity⟩ (trace.map Prod.fst)).2 ∧
      LruExact last (recencyRun ⟨[], capacity⟩ (trace.map Prod.fst)).1 := by
  obtain ⟨replies, refines⟩ := run_refines _ last _ (empty_refines capacity clock positive bounded ticks) trace ran takes
  exact ⟨replies, refines_exact last _ refines⟩

-- The clock turns over at the second insertion, and the third evicts the key that
-- was not looked up since.
theorem lru_refines_turned : ∃ last : DeterministicLru Nat Nat,
    LruRun ⟨[], 2, u64Max - 1⟩
      [(.insert 20 5, .evicted []), (.insert 10 6, .evicted []), (.get 20, .value (some 5)), (.insert 30 7, .evicted [(10, 6)])]
      last ∧ LruExact last ⟨[(20, 5), (30, 7)], 2⟩ := by
  have same : ∀ cache : DeterministicLru Nat Nat, Rehashed cache cache := fun cache => ⟨cache.entries, List.Perm.refl _, rfl⟩
  have ran : LruRun (⟨[], 2, u64Max - 1⟩ : DeterministicLru Nat Nat)
      [(.insert 20 5, .evicted []), (.insert 10 6, .evicted []), (.get 20, .value (some 5)), (.insert 30 7, .evicted [(10, 6)])]
      ⟨[(20, ⟨5, 3⟩), (30, ⟨7, 4⟩)], 2, 4⟩ := by
    apply LruRun.next _ _ ⟨[(20, ⟨5, u64Max⟩)], 2, u64Max⟩ _ _ _ _ (same _) (by decide +kernel)
    apply LruRun.next _ _ ⟨[(20, ⟨5, 1⟩), (10, ⟨6, 2⟩)], 2, 2⟩ _ _ _ _ (same _) (by decide +kernel)
    apply LruRun.next _ _ ⟨[(20, ⟨5, 3⟩), (10, ⟨6, 2⟩)], 2, 3⟩ _ _ _ _ (same _) (by decide +kernel)
    apply LruRun.next _ _ ⟨[(20, ⟨5, 3⟩), (30, ⟨7, 4⟩)], 2, 4⟩ _ _ _ _ (same _) (by decide +kernel)
    exact LruRun.here _
  have takes : ∀ item ∈ [((.insert 20 5 : LruOp Nat Nat), (.evicted [] : LruReply Nat Nat)), (.insert 10 6, .evicted []),
      (.get 20, .value (some 5)), (.insert 30 7, .evicted [(10, 6)])], item.1.Takes := by
    intro item member
    simp only [List.mem_cons, List.not_mem_nil, or_false] at member
    rcases member with rfl | rfl | rfl | rfl <;> trivial
  exact ⟨_, ran, (lru_refines 2 (u64Max - 1) (by decide) (by decide) (by decide) _ _ takes ran).2⟩

end Shiba.Runtime
