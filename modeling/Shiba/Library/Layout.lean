import Mathlib.Tactic

set_option autoImplicit false

namespace Layout

universe u v

-- Fixed-width unsigned numbers, most significant byte first.
def ofBigEndian (bytes : List UInt8) : Nat :=
  bytes.foldl (fun number byte => number * 256 + byte.toNat) 0

def toBigEndian : Nat → Nat → List UInt8
  | 0, _ => []
  | width + 1, number => toBigEndian width (number / 256) ++ [UInt8.ofNat number]

@[simp] theorem to_big_endian_length (width number : Nat) : (toBigEndian width number).length = width := by
  induction width generalizing number with
  | zero => rfl
  | succ width ih => simp [toBigEndian, ih]

theorem of_big_endian_append (bytes : List UInt8) (last : UInt8) :
    ofBigEndian (bytes ++ [last]) = ofBigEndian bytes * 256 + last.toNat := by
  simp [ofBigEndian]

theorem of_big_endian_lt (bytes : List UInt8) : ofBigEndian bytes < 256 ^ bytes.length := by
  induction bytes using List.reverseRecOn with
  | nil => simp [ofBigEndian]
  | append_singleton bytes last ih =>
      have small : last.toNat < 256 := last.toNat_lt
      rw [of_big_endian_append, List.length_append, List.length_singleton, pow_succ]
      omega

theorem of_to_big_endian (width number : Nat) (fits : number < 256 ^ width) :
    ofBigEndian (toBigEndian width number) = number := by
  induction width generalizing number with
  | zero =>
      have empty : number = 0 := by simpa using fits
      simp [toBigEndian, ofBigEndian, empty]
  | succ width ih =>
      have high : number / 256 < 256 ^ width := by
        apply Nat.div_lt_of_lt_mul
        rwa [pow_succ, Nat.mul_comm] at fits
      have low : (UInt8.ofNat number).toNat = number % 256 := by simp
      rw [toBigEndian, of_big_endian_append, ih _ high, low]
      omega

theorem to_of_big_endian (bytes : List UInt8) : toBigEndian bytes.length (ofBigEndian bytes) = bytes := by
  induction bytes using List.reverseRecOn with
  | nil => rfl
  | append_singleton bytes last ih =>
      have small : last.toNat < 256 := last.toNat_lt
      have high : (ofBigEndian bytes * 256 + last.toNat) / 256 = ofBigEndian bytes := by omega
      have low : UInt8.ofNat (ofBigEndian bytes * 256 + last.toNat) = last := by
        apply UInt8.toNat_inj.mp
        simp only [UInt8.toNat_ofNat']
        omega
      rw [List.length_append, List.length_singleton, toBigEndian, of_big_endian_append, high, low, ih]

-- Half-open byte ranges, as a checked slice returns them.
def slice (input : List UInt8) (start stop : Nat) : Option (List UInt8) :=
  if start ≤ stop ∧ stop ≤ input.length then some ((input.drop start).take (stop - start)) else none

theorem slice_some_iff (input part : List UInt8) (start count : Nat) :
    slice input start (start + count) = some part ↔
      start ≤ input.length ∧ part.length = count ∧ ∃ rest, input.drop start = part ++ rest := by
  unfold slice
  constructor
  · intro found
    split at found
    · rename_i inside
      have same := Option.some.inj found
      rw [Nat.add_sub_cancel_left] at same
      refine ⟨by omega, ?_, (input.drop start).drop count, ?_⟩
      · rw [← same, List.length_take, List.length_drop]
        omega
      · rw [← same, List.take_append_drop]
    · cases found
  · rintro ⟨inside, sized, rest, split⟩
    have total := congrArg List.length split
    rw [List.length_drop, List.length_append, sized] at total
    rw [if_pos (by omega), Nat.add_sub_cancel_left, split, ← sized, List.take_left]

-- A field of `part` bytes ends where the next one starts.
theorem drop_next {input part rest : List UInt8} {start : Nat} (split : input.drop start = part ++ rest) :
    input.drop (start + part.length) = rest := by
  rw [← List.drop_drop, split, List.drop_left]

-- A writer whose outputs can be told apart, and cut off, in front of any bytes.
def PrefixCode {α : Type u} (write : α → List UInt8) : Prop :=
  ∀ (first second : α) (after other : List UInt8), write first ++ after = write second ++ other →
    first = second ∧ after = other

namespace PrefixCode

variable {α : Type u} {β : Type v}

section

variable {write : α → List UInt8}

theorem prefix_eq (code : PrefixCode write) (first second : α) (shorter : write first <+: write second) :
    first = second := by
  obtain ⟨extra, longer⟩ := shorter
  apply (code first second extra [] _).1
  rw [longer, List.append_nil]

theorem fixed (width : Nat) (sized : ∀ value, (write value).length = width)
    (distinct : ∀ first second, write first = write second → first = second) : PrefixCode write := by
  intro first second after other same
  obtain ⟨head, tail⟩ := List.append_inj same (by rw [sized, sized])
  exact ⟨distinct first second head, tail⟩

theorem byte : PrefixCode fun value : UInt8 => [value] := by
  intro first second after other same
  exact ⟨(List.cons.inj same).1, (List.cons.inj same).2⟩

theorem constant (marker : List UInt8) : PrefixCode fun _ : Unit => marker := by
  intro first second after other same
  exact ⟨rfl, List.append_cancel_left same⟩

theorem pair {left : α → List UInt8} {right : β → List UInt8} (first : PrefixCode left) (second : PrefixCode right) :
    PrefixCode fun value : α × β => left value.1 ++ right value.2 := by
  intro one two after other same
  rw [List.append_assoc, List.append_assoc] at same
  obtain ⟨head, rest⟩ := first _ _ _ _ same
  obtain ⟨tail, rest⟩ := second _ _ _ _ rest
  exact ⟨Prod.ext head tail, rest⟩

theorem map {write : β → List UInt8} (code : PrefixCode write) (view : α → β)
    (faithful : ∀ first second, view first = view second → first = second) :
    PrefixCode fun value => write (view value) := by
  intro first second after other same
  obtain ⟨head, rest⟩ := code _ _ _ _ same
  exact ⟨faithful first second head, rest⟩

-- Items one after the other are told apart once their number is known.
theorem items (code : PrefixCode write) (first second : List α) (after other : List UInt8)
    (counted : first.length = second.length) (same : first.flatMap write ++ after = second.flatMap write ++ other) :
    first = second ∧ after = other := by
  induction first generalizing second with
  | nil =>
      have empty : second = [] := List.length_eq_zero_iff.mp counted.symm
      subst empty
      exact ⟨rfl, same⟩
  | cons head tail ih =>
      cases second with
      | nil => simp at counted
      | cons head' tail' =>
          simp only [List.flatMap_cons, List.append_assoc] at same
          obtain ⟨heads, rest⟩ := code head head' _ _ same
          obtain ⟨tails, rest⟩ := ih tail' (by simpa using counted) rest
          exact ⟨by rw [heads, tails], rest⟩

-- A count in front of its items.
theorem counted {limit : Nat} {count : Nat → List UInt8} (code : PrefixCode write)
    (number : PrefixCode fun value : Fin limit => count value.val) :
    PrefixCode fun values : { values : List α // values.length < limit } =>
      count values.val.length ++ values.val.flatMap write := by
  intro first second after other same
  rw [List.append_assoc, List.append_assoc] at same
  obtain ⟨counts, rest⟩ := number ⟨_, first.property⟩ ⟨_, second.property⟩ _ _ same
  obtain ⟨values, rest⟩ := items code _ _ _ _ (congrArg Fin.val counts) rest
  exact ⟨Subtype.ext values, rest⟩

end

-- A string of bytes other than the terminator, and the terminator.
theorem terminated (stop : UInt8) :
    PrefixCode fun text : { text : List UInt8 // stop ∉ text } => text.val ++ [stop] := by
  rintro ⟨first, clean⟩ ⟨second, clean'⟩ after other same
  simp only [List.append_assoc, List.singleton_append] at same
  induction first generalizing second with
  | nil =>
      cases second with
      | nil => exact ⟨rfl, (List.cons.inj same).2⟩
      | cons head tail =>
          have hit : stop = head := (List.cons.inj same).1
          exact absurd (hit ▸ List.mem_cons_self) clean'
  | cons head tail ih =>
      cases second with
      | nil =>
          have hit : head = stop := (List.cons.inj same).1
          exact absurd (hit ▸ List.mem_cons_self) clean
      | cons head' tail' =>
          obtain ⟨heads, rest⟩ := List.cons.inj same
          obtain ⟨tails, rest⟩ := ih (fun inside => clean (List.mem_cons_of_mem _ inside)) tail'
            (fun inside => clean' (List.mem_cons_of_mem _ inside)) rest
          have texts : tail = tail' := congrArg Subtype.val tails
          exact ⟨Subtype.ext (congrArg₂ List.cons heads texts), rest⟩

end PrefixCode

theorem big_endian_code (width : Nat) : PrefixCode fun number : Fin (256 ^ width) => toBigEndian width number.val := by
  have sized (number : Fin (256 ^ width)) : (toBigEndian width number.val).length = width :=
    to_big_endian_length width number.val
  refine PrefixCode.fixed width sized ?_
  intro first second same
  have numbers := congrArg ofBigEndian same
  rw [of_to_big_endian width _ first.isLt, of_to_big_endian width _ second.isLt] at numbers
  exact Fin.ext numbers

end Layout
