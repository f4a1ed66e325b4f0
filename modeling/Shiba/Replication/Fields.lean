import Shiba.Replication.Wire

set_option autoImplicit false

namespace Shiba.Replication

open Layout

@[simp] theorem require_ok (good : Bool) (message : String) (result : Unit) :
    require good message = .ok result ↔ good = true := by
  unfold require
  cases good <;> simp

variable {β α : Type} (first : Parsed α) (input : Bytes) (offset : Nat)

@[simp] theorem ok_or_ok (value : Option α) (message : String) (result : α) :
    okOr value message = .ok result ↔ value = some result := by
  unfold okOr
  cases value <;> simp

theorem parsed_bind (next : α → Parsed β) (result : β) :
    (first >>= next) = .ok result ↔ ∃ value, first = .ok value ∧ next value = .ok result := by
  cases first <;> simp [bind, Except.bind]

variable (expected : Nat) (text error : String) (result : Unit)

@[simp] theorem exact_ok :
    requireExactLen input expected error = .ok result ↔ input.length = expected := by
  simp [requireExactLen]

@[simp] theorem parsed_pure (value result : α) : (pure value : Parsed α) = .ok result ↔ value = result := by
  simp [pure, Except.pure]

-- The bytes a field occupies lie inside the input.
theorem drop_inside {input part rest : Bytes} {offset : Nat} (split : input.drop offset = part ++ rest)
    (present : 0 < part.length) : offset + part.length ≤ input.length := by
  have total := congrArg List.length split
  rw [List.length_drop, List.length_append] at total
  omega

theorem byte_iff (byte : UInt8) :
    input[offset]? = some byte ↔ ∃ rest, input.drop offset = [byte] ++ rest := by
  rw [← List.head?_drop, List.head?_eq_some_iff]
  rfl

theorem zero_flag_iff :
    requireZeroFlag input offset error = .ok result ↔ ∃ rest, input.drop offset = [0] ++ rest := by
  rw [← byte_iff, requireZeroFlag, parsed_bind]
  simp

theorem read_uint_iff (width : Nat) (positive : 0 < width) (input : Bytes) (offset number : Nat) :
    readUint width input offset = .ok number ↔
      number < 256 ^ width ∧ ∃ rest, input.drop offset = toBigEndian width number ++ rest := by
  simp only [readUint, parsed_bind, ok_or_ok, parsed_pure]
  constructor
  · rintro ⟨bytes, found, same⟩
    obtain ⟨_, sized, rest, split⟩ := (slice_some_iff input bytes offset width).mp found
    subst same
    subst sized
    exact ⟨of_big_endian_lt bytes, rest, by rw [to_of_big_endian, split]⟩
  · rintro ⟨small, rest, split⟩
    have inside := drop_inside split (by rwa [to_big_endian_length])
    refine ⟨toBigEndian width number, ?_, of_to_big_endian width number small⟩
    rw [slice_some_iff]
    exact ⟨by omega, to_big_endian_length width number, rest, split⟩

theorem parsed_map (view : α → β) (result : β) :
    (view <$> first) = .ok result ↔ ∃ value, first = .ok value ∧ view value = result := by
  cases first <;> simp [Functor.map, Except.map]

-- A fixed-width integer and its number determine each other.
theorem read_word_iff {Word : Type} {width : Nat} (positive : 0 < width) {narrow : Nat → Word} {wide : Word → Nat}
    (small : ∀ value, wide value < 256 ^ width) (back : ∀ number < 256 ^ width, wide (narrow number) = number)
    (forth : ∀ value, narrow (wide value) = value) (input : Bytes) (offset : Nat) (value : Word) :
    narrow <$> readUint width input offset = .ok value ↔
      ∃ rest, input.drop offset = toBigEndian width (wide value) ++ rest := by
  rw [parsed_map]
  constructor
  · rintro ⟨number, read, same⟩
    obtain ⟨fits, split⟩ := (read_uint_iff width positive input offset number).mp read
    rwa [← same, back number fits]
  · intro split
    have read := (read_uint_iff width positive input offset (wide value)).mpr ⟨small value, split⟩
    exact ⟨wide value, read, forth value⟩

theorem read_u16_iff (value : UInt16) :
    readU16 input offset = .ok value ↔ ∃ rest, input.drop offset = writeU16 value ++ rest :=
  read_word_iff (by decide) UInt16.toNat_lt
    (fun _ fits => UInt16.toNat_ofNat_of_lt' fits) (fun _ => UInt16.ofNat_toNat) input offset value

theorem read_u32_iff (value : UInt32) :
    readU32 input offset = .ok value ↔ ∃ rest, input.drop offset = writeU32 value ++ rest :=
  read_word_iff (by decide) UInt32.toNat_lt
    (fun _ fits => UInt32.toNat_ofNat_of_lt' fits) (fun _ => UInt32.ofNat_toNat) input offset value

theorem read_u64_iff (value : UInt64) :
    readU64 input offset = .ok value ↔ ∃ rest, input.drop offset = writeU64 value ++ rest :=
  read_word_iff (by decide) UInt64.toNat_lt
    (fun _ fits => UInt64.toNat_ofNat_of_lt' fits) (fun _ => UInt64.ofNat_toNat) input offset value

theorem read_i64_iff (value : Int64) :
    readI64 input offset = .ok value ↔ ∃ rest, input.drop offset = writeI64 value ++ rest := by
  rw [readI64, parsed_map, writeI64, ← read_u64_iff]
  constructor
  · rintro ⟨word, read, same⟩
    rw [← same]
    simpa using read
  · intro read
    exact ⟨value.toUInt64, read, by simp⟩

@[simp] theorem write_u16_length (value : UInt16) : (writeU16 value).length = 2 := to_big_endian_length 2 _
@[simp] theorem write_u32_length (value : UInt32) : (writeU32 value).length = 4 := to_big_endian_length 4 _
@[simp] theorem write_u64_length (value : UInt64) : (writeU64 value).length = 8 := to_big_endian_length 8 _
@[simp] theorem write_i64_length (value : Int64) : (writeI64 value).length = 8 := to_big_endian_length 8 _

@[simp] theorem from_utf8_some (bytes : Bytes) (text : String) : fromUtf8 bytes = some text ↔ bytes = utf8 text := by
  unfold fromUtf8 String.fromUTF8? utf8
  constructor
  · intro found
    split at found
    · have same := Option.some.inj found
      rw [← same]
      rfl
    · cases found
  · intro same
    subst same
    have whole : (⟨text.toByteArray.data.toList.toArray⟩ : ByteArray) = text.toByteArray := rfl
    rw [dif_pos (whole ▸ text.isValidUTF8)]
    exact congrArg some (String.toByteArray_inj.mp rfl)

theorem read_cstr_iff (stop : Nat) :
    readCstr input offset = .ok (text, stop) ↔ ∃ name : CString, name.text = text ∧
      ∃ rest, input.drop offset = name.write ++ rest ∧ stop = offset + name.write.length := by
  simp only [readCstr, parsed_bind, require_ok, decide_eq_true_eq, exists_const, ok_or_ok,
    from_utf8_some, parsed_pure]
  constructor
  · rintro ⟨_, count, found, value, bytes, same⟩
    obtain ⟨rfl, rfl⟩ := Prod.mk.inj same
    rw [List.findIdx?_eq_some_iff_getElem] at found
    obtain ⟨inside, hit, before⟩ := found
    have zero : (input.drop offset)[count] = 0 := by simpa using hit
    have clean : (0 : UInt8) ∉ utf8 value := by
      intro member
      rw [← bytes] at member
      obtain ⟨index, below, at'⟩ := List.getElem_of_mem member
      rw [List.length_take] at below
      rw [List.getElem_take] at at'
      exact before index (by omega) (by simp [at'])
    refine ⟨⟨value, clean⟩, rfl, (input.drop offset).drop (count + 1), ?_, ?_⟩
    · rw [CString.write, ← bytes, List.append_assoc, ← zero, List.singleton_append, List.getElem_cons_drop,
        List.take_append_drop]
    · rw [CString.write, ← bytes, List.length_append, List.length_take, List.length_singleton]
      omega
  · rintro ⟨name, same, rest, split, stopped⟩
    subst same
    have inside := drop_inside split (by simp [CString.write])
    have whole : input.drop offset = utf8 name.text ++ 0 :: rest := by
      rw [split, CString.write, List.append_assoc, List.singleton_append]
    refine ⟨by omega, (utf8 name.text).length, ?_, name.text, ?_, ?_⟩
    · rw [whole, List.findIdx?_append, List.findIdx?_eq_none_iff.mpr, Option.none_or]
      · simp [List.findIdx?_cons]
      · intro byte member
        have apart : byte ≠ 0 := fun zero => name.clean (zero ▸ member)
        simp [apart]
    · rw [whole, List.take_left]
    · rw [stopped, CString.write, List.length_append, List.length_singleton, Nat.add_assoc]

end Shiba.Replication
