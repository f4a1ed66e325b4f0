import Shiba.Replication.Fields

set_option autoImplicit false

namespace Shiba.Replication

open Layout

-- A reader that accepts what a writer writes, whatever follows it, and nothing else.
def Reads {α ω : Type} (input : Bytes) (read : Nat → Parsed (α × Nat)) (write : ω → Bytes) (view : ω → α) : Prop :=
  ∀ offset value stop, read offset = .ok (value, stop) ↔ ∃ wire, view wire = value ∧
    ∃ rest, input.drop offset = write wire ++ rest ∧ stop = offset + (write wire).length

theorem drop_after {input part rest : Bytes} {offset count : Nat} (split : input.drop offset = part ++ rest)
    (sized : part.length = count) : input.drop (offset + count) = rest := by
  rw [← sized, drop_next split]

variable (input : Bytes) (offset : Nat)

theorem skipped_byte (inside : offset < input.length) :
    ∃ byte, input.drop offset = [byte] ++ input.drop (offset + 1) :=
  ⟨input[offset], List.drop_eq_getElem_cons inside⟩

theorem skipped_uint {width : Nat} {input : Bytes} {offset : Nat} (inside : offset + width ≤ input.length) :
    ∃ number, readUint width input offset = .ok number := by
  refine ⟨ofBigEndian ((input.drop offset).take width), ?_⟩
  simp only [readUint, parsed_bind, ok_or_ok, parsed_pure]
  refine ⟨(input.drop offset).take width, ?_, rfl⟩
  rw [slice_some_iff]
  refine ⟨by omega, ?_, _, (List.take_append_drop width _).symm⟩
  rw [List.length_take, List.length_drop]
  omega

theorem skipped_u32 (inside : offset + 4 ≤ input.length) :
    ∃ value rest, input.drop offset = writeU32 value ++ rest := by
  obtain ⟨number, read⟩ := skipped_uint inside
  exact ⟨_, (read_u32_iff input offset _).mp ((parsed_map _ _ _).mpr ⟨number, read, rfl⟩)⟩

theorem skipped_u64 (inside : offset + 8 ≤ input.length) :
    ∃ value rest, input.drop offset = writeU64 value ++ rest := by
  obtain ⟨number, read⟩ := skipped_uint inside
  exact ⟨_, (read_u64_iff input offset _).mp ((parsed_map _ _ _).mpr ⟨number, read, rfl⟩)⟩

theorem reads_tuple_value :
    Reads input (parseTupleValue input) WireValue.write Subtype.val := by
  intro offset value stop
  simp only [parseTupleValue, parsed_bind, ok_or_ok, byte_iff]
  constructor
  · rintro ⟨tag, ⟨rest, split⟩, parsed⟩
    by_cases null : tag = 'n'.toUInt8
    · rw [if_pos null, parsed_pure] at parsed
      obtain ⟨rfl, rfl⟩ := Prod.mk.inj parsed
      exact ⟨⟨.null, trivial⟩, rfl, rest, by rw [split, null]; rfl, rfl⟩
    rw [if_neg null] at parsed
    by_cases text : tag = 't'.toUInt8
    · rw [if_pos text] at parsed
      simp only [parsed_bind, ok_or_ok, read_u32_iff, from_utf8_some, parsed_pure] at parsed
      obtain ⟨length, ⟨after, sized⟩, bytes, found, content, decoded, same⟩ := parsed
      obtain ⟨rfl, rfl⟩ := Prod.mk.inj same
      obtain ⟨_, counted, tail, body⟩ := (slice_some_iff input bytes (offset + 5) length.toNat).mp found
      subst decoded
      have first : rest = writeU32 length ++ after := by
        rw [← sized]
        exact (drop_after split rfl).symm
      have second : after = utf8 content ++ tail := by
        rw [← body, ← drop_after sized (write_u32_length length)]
      have fits : (utf8 content).length < 256 ^ 4 := by
        rw [counted]
        exact length.toNat_lt
      refine ⟨⟨.text content, fits⟩, rfl, tail, ?_, ?_⟩
      · rw [split, first, second, text, writeU32, ← counted, WireValue.write]
        simp only [List.append_assoc]
      · simp only [WireValue.write, List.length_append, List.length_singleton, to_big_endian_length, counted]
        omega
    rw [if_neg text] at parsed
    by_cases unchanged : tag = 'u'.toUInt8
    · rw [if_pos unchanged, parsed_pure] at parsed
      obtain ⟨rfl, rfl⟩ := Prod.mk.inj parsed
      exact ⟨⟨.unchangedToast, trivial⟩, rfl, rest, by rw [split, unchanged]; rfl, rfl⟩
    · rw [if_neg unchanged] at parsed
      cases parsed
  · rintro ⟨⟨wire, fits⟩, same, rest, split, stopped⟩
    subst same
    cases wire with
    | null => exact ⟨'n'.toUInt8, ⟨rest, split⟩, by rw [if_pos rfl, stopped]; rfl⟩
    | unchangedToast =>
        refine ⟨'u'.toUInt8, ⟨rest, split⟩, ?_⟩
        rw [if_neg (by decide), if_neg (by decide), if_pos rfl, stopped]
        rfl
    | text content =>
        have small : (utf8 content).length < 256 ^ 4 := fits
        have length : (UInt32.ofNat (utf8 content).length).toNat = (utf8 content).length :=
          UInt32.toNat_ofNat_of_lt' small
        have split : input.drop offset = ['t'.toUInt8] ++ (writeU32 (UInt32.ofNat (utf8 content).length) ++
            (utf8 content ++ rest)) := by
          rw [split, WireValue.write, writeU32, length]
          simp only [List.append_assoc]
        have sized : input.drop (offset + 1) = _ := drop_after split rfl
        have body := drop_after sized (write_u32_length _)
        have inside := drop_inside sized (by simp)
        rw [write_u32_length] at inside
        refine ⟨'t'.toUInt8, ⟨_, split⟩, ?_⟩
        rw [if_neg (by decide), if_pos rfl]
        simp only [parsed_bind, ok_or_ok, read_u32_iff, from_utf8_some, parsed_pure]
        refine ⟨_, ⟨_, sized⟩, utf8 content, ?_, content, rfl, ?_⟩
        · rw [length, slice_some_iff]
          exact ⟨by simpa [Nat.add_assoc] using inside, rfl, rest, body⟩
        · rw [length, stopped, WireValue.write]
          simp only [List.length_append, List.length_singleton, to_big_endian_length]
          rw [← Nat.add_assoc, ← Nat.add_assoc]

-- By induction on the count: the items lie one behind the other.
theorem reads_repeat {α ω : Type} {input : Bytes} {item : Nat → Parsed (α × Nat)} {write : ω → Bytes} {view : ω → α}
    (one : Reads input item write view) (count offset : Nat) (values : List α) (stop : Nat) :
    repeatParse item count offset = .ok (values, stop) ↔ ∃ wires : List ω, wires.length = count ∧
      wires.map view = values ∧ ∃ rest, input.drop offset = wires.flatMap write ++ rest ∧
        stop = offset + (wires.flatMap write).length := by
  induction count generalizing offset values stop with
  | zero =>
      simp only [repeatParse, parsed_pure, List.length_eq_zero_iff, Prod.mk.injEq]
      constructor
      · rintro ⟨empty, same⟩
        exact ⟨[], rfl, empty, input.drop offset, rfl, same.symm⟩
      · rintro ⟨wires, nothing, empty, _, _, same⟩
        subst nothing
        exact ⟨empty, same.symm⟩
  | succ count ih =>
      simp only [repeatParse, parsed_bind, Prod.exists, parsed_pure]
      constructor
      · rintro ⟨value, next, parsed, tail, finish, more, same⟩
        obtain ⟨rfl, rfl⟩ := Prod.mk.inj same
        obtain ⟨wire, viewed, rest, split, rfl⟩ := (one offset value next).mp parsed
        obtain ⟨wires, counted, views, after, later, rfl⟩ := (ih _ tail finish).mp more
        refine ⟨wire :: wires, by rw [List.length_cons, counted], by rw [List.map_cons, viewed, views], after, ?_, ?_⟩
        · rw [split, ← drop_next split, later, List.flatMap_cons, List.append_assoc]
        · rw [List.flatMap_cons, List.length_append, Nat.add_assoc]
      · rintro ⟨wires, counted, views, rest, split, stopped⟩
        cases wires with
        | nil => simp at counted
        | cons wire wires =>
            subst views
            rw [List.flatMap_cons, List.append_assoc] at split
            have parsed := (one offset (view wire) _).mpr ⟨wire, rfl, _, split, rfl⟩
            have more := (ih (offset + (write wire).length) (wires.map view) stop).mpr
              ⟨wires, by simpa using counted, rfl, rest, drop_next split, by
                rw [stopped, List.flatMap_cons, List.length_append, Nat.add_assoc]⟩
            exact ⟨_, _, parsed, _, _, more, rfl⟩

theorem reads_relation_column :
    Reads input (parseRelationColumn input) WireColumn.write (fun column => column.name.text) := by
  intro offset text stop
  simp only [parseRelationColumn, parsed_bind, Prod.exists, require_ok, decide_eq_true_eq, exists_const, parsed_pure,
    read_cstr_iff]
  constructor
  · rintro ⟨_, _, ⟨name, named, rest, split, ended⟩, inside, same⟩
    obtain ⟨rfl, rfl⟩ := Prod.mk.inj same
    subst ended
    have start := drop_inside split (by simp [CString.write])
    obtain ⟨flags, flagged⟩ := skipped_byte input offset (by omega)
    obtain ⟨typeOid, after, typed⟩ := skipped_u32 input (offset + 1 + name.write.length) (by omega)
    obtain ⟨typeModifier, last, modified⟩ := skipped_u32 input (offset + 1 + name.write.length + 4) (by omega)
    refine ⟨⟨flags, name, typeOid, typeModifier⟩, named, last, ?_, ?_⟩
    · rw [flagged, split, ← drop_next split, typed, ← drop_after typed (write_u32_length _), modified, WireColumn.write]
      simp only [List.append_assoc]
    · simp only [WireColumn.write, List.length_append, List.length_singleton, write_u32_length]
      omega
  · rintro ⟨column, named, rest, split, stopped⟩
    have inside := drop_inside split (by simp [WireColumn.write])
    simp only [WireColumn.write, List.append_assoc] at split
    refine ⟨text, offset + 1 + column.name.write.length, ⟨column.name, named, _, drop_after split rfl, rfl⟩, ?_, ?_⟩
    · simp only [WireColumn.write, List.length_append, List.length_singleton, write_u32_length] at inside
      omega
    · rw [stopped]
      simp only [WireColumn.write, List.length_append, List.length_singleton, write_u32_length, Nat.add_assoc]

-- The tuple behind its tag.
theorem reads_tuple (values : List ParsedTupleValue) (stop : Nat) :
    parseTuple input offset = .ok (values, stop) ↔ ∃ tag wire, (tag = 'N'.toUInt8 ∨ tag = 'K'.toUInt8 ∨
      tag = 'O'.toUInt8) ∧ wire.val.map Subtype.val = values ∧ ∃ rest, input.drop offset =
        [tag] ++ (WireTuple.write wire ++ rest) ∧ stop = offset + 1 + (WireTuple.write wire).length := by
  simp only [parseTuple, parsed_bind, require_ok, exists_const, Bool.or_eq_true, beq_iff_eq, read_u16_iff,
    reads_repeat (reads_tuple_value input)]
  constructor
  · rintro ⟨tagged, count, ⟨after, counted⟩, wires, number, viewed, rest, split, stopped⟩
    have inside := drop_inside counted (by simp)
    obtain ⟨tag, first⟩ := skipped_byte input offset (by omega)
    have found : input[offset]? = some tag := (byte_iff input offset tag).mpr ⟨_, first⟩
    have fits : wires.length < 256 ^ 2 := by
      rw [number]
      exact count.toNat_lt
    refine ⟨tag, ⟨wires, fits⟩, ?_, viewed, rest, ?_, ?_⟩
    · simpa [found, or_assoc] using tagged
    · rw [first, counted, ← drop_after counted (write_u16_length _), split, WireTuple.write, writeU16, number]
      simp only [List.append_assoc]
    · rw [stopped, WireTuple.write, List.length_append, to_big_endian_length, ← Nat.add_assoc]
  · rintro ⟨tag, ⟨wires, fits⟩, tagged, viewed, rest, split, stopped⟩
    have found : input[offset]? = some tag := (byte_iff input offset tag).mpr ⟨_, split⟩
    have number : (UInt16.ofNat wires.length).toNat = wires.length := UInt16.toNat_ofNat_of_lt' fits
    have counted : input.drop (offset + 1) = writeU16 (UInt16.ofNat wires.length) ++ (wires.flatMap WireValue.write ++ rest) := by
      rw [writeU16, number, ← List.append_assoc]
      exact drop_after split rfl
    refine ⟨?_, UInt16.ofNat wires.length, ⟨_, counted⟩, wires, number.symm, viewed, rest, ?_, ?_⟩
    · simpa [found, or_assoc] using tagged
    · have behind := drop_after counted (write_u16_length _)
      rwa [Nat.add_assoc] at behind
    · rw [stopped, WireTuple.write, List.length_append, to_big_endian_length, ← Nat.add_assoc]

end Shiba.Replication
