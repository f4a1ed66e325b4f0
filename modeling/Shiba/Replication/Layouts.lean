import Shiba.Replication.Rows

set_option autoImplicit false

namespace Shiba.Replication

open Layout

section

variable (old : Tuple) (new : List ParsedTupleValue) (offset : Nat) (row : Tuple)

theorem resolve_from :
    ((new.zipIdx offset).mapM fun (value, index) =>
      (match value with
      | .null => .ok none
      | .text value => .ok (some value)
      | .unchangedToast => okOr old[index]? "unchanged TOAST column is absent from the UPDATE old tuple" :
        Parsed (Option String))) = .ok row ↔ rowOf (old.drop offset) new = some row := by
  induction new generalizing offset row with
  | nil => simp [rowOf]
  | cons value values ih =>
      simp only [List.zipIdx_cons, List.mapM_cons, parsed_bind, parsed_pure, ih, rowOf, Option.bind_eq_bind,
        Option.pure_def, List.tail_drop, List.head?_drop]
      cases value <;> simp [Option.bind_eq_some_iff]

theorem resolve_unchanged_iff :
    resolveUnchangedToast old new = .ok row ↔ rowOf old new = some row :=
  resolve_from old new 0 row

end

theorem complete_tuple_iff (values : List ParsedTupleValue) (row : Tuple) :
    completeTuple values = .ok row ↔ rowOf [] values = some row := by
  unfold completeTuple
  induction values generalizing row with
  | nil => simp [rowOf]
  | cons value values ih =>
      simp only [List.mapM_cons, parsed_bind, parsed_pure, ih, rowOf, Option.bind_eq_bind,
        Option.pure_def, List.tail_nil, List.head?_nil]
      cases value <;> simp [Option.bind_eq_some_iff]

-- A message is as long as its fields when the last field reaches the end of the input.
theorem nothing_left {input part rest : Bytes} {offset : Nat} (split : input.drop offset = part ++ rest)
    (present : 0 < part.length) (ended : input.length = offset + part.length) : rest = [] := by
  have inside := drop_inside split present
  rw [← drop_next split, ← ended, List.drop_length]

theorem whole_length {input part : Bytes} {offset : Nat} (split : input.drop offset = part)
    (present : 0 < part.length) : input.length = offset + part.length := by
  have total := congrArg List.length split
  rw [List.length_drop] at total
  omega

variable {tag : UInt8} (input : Bytes) (offset : Nat) (sourceXid : Option UInt32) (message : Message)

-- A tuple whose tag was looked at before it was read.
theorem tagged_tuple {input after : Bytes} {offset : Nat} (tagged : input.drop offset = [tag] ++ after)
    {values : List ParsedTupleValue} {stop : Nat} (read : parseTuple input offset = .ok (values, stop)) :
    ∃ wire, wire.val.map Subtype.val = values ∧ ∃ rest, input.drop offset = [tag] ++ (WireTuple.write wire ++ rest) ∧
      input.drop stop = rest ∧ stop = offset + 1 + (WireTuple.write wire).length := by
  obtain ⟨other, wire, _, viewed, rest, split, stopped⟩ := (reads_tuple input offset values stop).mp read
  have same : tag = other := by
    rw [tagged] at split
    exact (List.cons.inj split).1
  subst same
  have behind : input.drop (offset + 1) = WireTuple.write wire ++ rest := drop_after split rfl
  exact ⟨wire, viewed, rest, split, by rw [stopped, drop_next behind], stopped⟩

theorem tuple_written {input rest : Bytes} {offset : Nat} {wire : WireTuple}
    (split : input.drop offset = [tag] ++ (WireTuple.write wire ++ rest))
    (known : tag = 'N'.toUInt8 ∨ tag = 'K'.toUInt8 ∨ tag = 'O'.toUInt8) :
    parseTuple input offset = .ok (wire.val.map Subtype.val, offset + 1 + (WireTuple.write wire).length) :=
  (reads_tuple input offset _ _).mpr ⟨tag, wire, known, rfl, rest, split, rfl⟩

theorem parse_insert_iff :
    parseInsert input offset sourceXid = .ok message ↔ ∃ relid row,
      input.drop offset = (WireBody.insert relid row).fields ∧
        (WireBody.insert relid row).message sourceXid = some message := by
  simp only [parseInsert, parsed_bind, Prod.exists, read_u32_iff, require_ok, beq_iff_eq, byte_iff, exists_const,
    exact_ok, parsed_pure, complete_tuple_iff, WireBody.message, WireTuple.row, Option.bind_eq_bind,
    Option.bind_eq_some_iff, Option.pure_def, Option.some.injEq]
  constructor
  · rintro ⟨relid, ⟨_, split⟩, ⟨_, tagged⟩, values, stop, read, ended, row, complete, same⟩
    obtain ⟨wire, viewed, rest, tuple, behind, _⟩ := tagged_tuple tagged read
    subst viewed
    rw [← ended, List.drop_length] at behind
    refine ⟨relid, wire, ?_, row, complete, same⟩
    rw [split, ← drop_after split (write_u32_length _), tuple, ← behind]
    simp only [WireBody.fields, List.append_assoc, List.append_nil]
  · rintro ⟨relid, wire, split, row, complete, same⟩
    have sized := whole_length split (by simp [WireBody.fields])
    simp only [WireBody.fields, List.append_assoc] at split
    have tagged := drop_after split (write_u32_length _)
    have read := tuple_written (by rw [tagged, List.append_nil]) (Or.inl rfl)
    refine ⟨relid, ⟨_, split⟩, ⟨_, tagged⟩, _, _, read, ?_, row, complete, same⟩
    rw [sized, WireBody.fields]
    simp only [List.length_append, write_u32_length, List.length_singleton, Nat.add_assoc]

theorem parse_delete_iff :
    parseDelete input offset sourceXid = .ok message ↔ ∃ relid whole old,
      input.drop offset = (WireBody.delete relid whole old).fields ∧
        (WireBody.delete relid whole old).message sourceXid = some message := by
  simp only [parseDelete, parsed_bind, Prod.exists, read_u32_iff, require_ok, Bool.or_eq_true, beq_iff_eq, byte_iff,
    exists_const, exact_ok, parsed_pure, complete_tuple_iff, WireBody.message, WireTuple.row, Option.bind_eq_bind,
    Option.bind_eq_some_iff, Option.pure_def, Option.some.injEq]
  constructor
  · rintro ⟨relid, ⟨_, split⟩, tagged, values, stop, read, ended, row, complete, same⟩
    have known : ∃ whole rest, input.drop (offset + 4) = writeOldTag whole ++ rest := by
      cases tagged with
      | inl key => exact ⟨false, key⟩
      | inr full => exact ⟨true, full⟩
    obtain ⟨whole, _, tagged⟩ := known
    obtain ⟨wire, viewed, rest, tuple, behind, _⟩ := tagged_tuple tagged read
    subst viewed
    rw [← ended, List.drop_length] at behind
    refine ⟨relid, whole, wire, ?_, row, complete, same⟩
    rw [split, ← drop_after split (write_u32_length _), tuple, ← behind]
    simp only [WireBody.fields, writeOldTag, List.append_assoc, List.append_nil]
  · rintro ⟨relid, whole, wire, split, row, complete, same⟩
    have sized := whole_length split (by simp [WireBody.fields])
    simp only [WireBody.fields, writeOldTag, List.append_assoc] at split
    have tagged := drop_after split (write_u32_length _)
    have read := tuple_written (by rw [tagged, List.append_nil]) (by cases whole <;> simp)
    refine ⟨relid, ⟨_, split⟩, ?_, _, _, read, ?_, row, complete, same⟩
    · cases whole with
      | false => exact Or.inl ⟨_, tagged⟩
      | true => exact Or.inr ⟨_, tagged⟩
    · rw [sized, WireBody.fields, writeOldTag]
      simp only [List.length_append, write_u32_length, List.length_singleton, Nat.add_assoc]

theorem parse_update_iff :
    parseUpdate input offset sourceXid = .ok message ↔ ∃ relid whole old new,
      input.drop offset = (WireBody.update relid whole old new).fields ∧
        (WireBody.update relid whole old new).message sourceXid = some message := by
  simp only [parseUpdate, parsed_bind, Prod.exists, read_u32_iff, ok_or_ok, require_ok, Bool.or_eq_true, beq_iff_eq,
    bne_iff_ne, exists_const, exact_ok, complete_tuple_iff, resolve_unchanged_iff, parsed_pure, byte_iff, WireBody.message, WireTuple.row, Option.bind_eq_bind, Option.bind_eq_some_iff, Option.pure_def, Option.some.injEq]
  constructor
  · rintro ⟨relid, ⟨_, split⟩, tag, ⟨_, tagged⟩, _, known, _, _, readOld, ⟨_, marked⟩, oldRow, oldComplete, _, stop,
      readNew, ended, newRow, newComplete, same⟩
    have whole : ∃ whole, [tag] = writeOldTag whole := by
      cases known with
      | inl key => exact ⟨false, by rw [key]; rfl⟩
      | inr full => exact ⟨true, by rw [full]; rfl⟩
    obtain ⟨whole, tagIs⟩ := whole
    obtain ⟨old, oldViewed, rest, oldTuple, behindOld, _⟩ := tagged_tuple tagged readOld
    obtain ⟨new, newViewed, last, newTuple, behindNew, _⟩ := tagged_tuple marked readNew
    subst oldViewed
    subst newViewed
    rw [← ended, List.drop_length] at behindNew
    refine ⟨relid, whole, old, new, ?_, oldRow, oldComplete, newRow, newComplete, same⟩
    rw [split, ← drop_after split (write_u32_length _), oldTuple, ← behindOld, newTuple, ← behindNew, tagIs]
    simp only [WireBody.fields, List.append_assoc, List.append_nil]
  · rintro ⟨relid, whole, old, new, split, oldRow, oldComplete, newRow, newComplete, same⟩
    have sized := whole_length split (by simp [WireBody.fields])
    simp only [WireBody.fields, List.append_assoc] at split
    have tagged := drop_after split (write_u32_length _)
    have known : ∃ tag, writeOldTag whole = [tag] ∧ tag ≠ 'N'.toUInt8 ∧ (tag = 'K'.toUInt8 ∨ tag = 'O'.toUInt8) := by
      cases whole with
      | false => exact ⟨'K'.toUInt8, rfl, by decide, Or.inl rfl⟩
      | true => exact ⟨'O'.toUInt8, rfl, by decide, Or.inr rfl⟩
    obtain ⟨tag, tagIs, notNew, oldTag⟩ := known
    rw [tagIs] at tagged
    have readOld := tuple_written tagged (Or.inr oldTag)
    have behindTag : input.drop (offset + 4 + 1) = _ := drop_after tagged rfl
    have marked := drop_next behindTag
    have readNew := tuple_written (by rw [marked, List.append_nil]) (Or.inl rfl)
    refine ⟨relid, ⟨_, split⟩, tag, ⟨_, tagged⟩, notNew, oldTag, _, _, readOld, ⟨_, marked⟩, oldRow, oldComplete, _, _,
      readNew, ?_, newRow, newComplete, same⟩
    rw [sized, WireBody.fields, tagIs]
    simp only [List.length_append, write_u32_length, List.length_singleton, Nat.add_assoc]

theorem parse_type_iff :
    parseType input offset sourceXid = .ok message ↔ ∃ typeid namespaceName name,
      input.drop offset = (WireBody.type typeid namespaceName name).fields ∧
        (WireBody.type typeid namespaceName name).message sourceXid = some message := by
  simp only [parseType, parsed_bind, Prod.exists, read_u32_iff, read_cstr_iff, exact_ok, exists_const, parsed_pure,
    WireBody.message, Option.some.injEq]
  constructor
  · rintro ⟨typeid, ⟨_, split⟩, _, _, ⟨namespaceName, named, _, first, rfl⟩, _, _, ⟨name, called, rest, second, rfl⟩,
      ended, same⟩
    subst named
    subst called
    have empty := nothing_left second (by simp [CString.write]) ended
    refine ⟨typeid, namespaceName, name, ?_, same⟩
    rw [split, ← drop_after split (write_u32_length _), first, ← drop_next first, second, empty]
    simp only [WireBody.fields, List.append_assoc, List.append_nil]
  · rintro ⟨typeid, namespaceName, name, split, same⟩
    have sized := whole_length split (by simp [WireBody.fields])
    simp only [WireBody.fields, List.append_assoc] at split
    have first := drop_after split (write_u32_length _)
    have second := drop_next first
    refine ⟨typeid, ⟨_, split⟩, _, _, ⟨namespaceName, rfl, _, first, rfl⟩, _, _,
      ⟨name, rfl, [], by rw [second, List.append_nil], rfl⟩, ?_, same⟩
    rw [sized, WireBody.fields]
    simp only [List.length_append, write_u32_length, Nat.add_assoc]

theorem parse_relation_iff :
    parseRelation input offset sourceXid = .ok message ↔ ∃ relid namespaceName name replicaIdentity columns,
      input.drop offset = (WireBody.relation relid namespaceName name replicaIdentity columns).fields ∧
        (WireBody.relation relid namespaceName name replicaIdentity columns).message sourceXid = some message := by
  simp only [parseRelation, parsed_bind, Prod.exists, read_u32_iff, read_u16_iff, read_cstr_iff,
    reads_repeat (reads_relation_column input), exact_ok, exists_const, parsed_pure, WireBody.message, Option.some.injEq]
  constructor
  · rintro ⟨relid, ⟨_, split⟩, _, _, ⟨namespaceName, _, _, first, rfl⟩, _, _, ⟨name, _, _, second, rfl⟩, count,
      ⟨_, counted⟩, _, _, ⟨columns, number, viewed, rest, listed, rfl⟩, ended, same⟩
    subst viewed
    have inside := drop_inside counted (by simp)
    rw [write_u16_length] at inside
    obtain ⟨replicaIdentity, third⟩ := skipped_byte input
      (offset + 4 + namespaceName.write.length + name.write.length) (by omega)
    have fits : columns.length < 256 ^ 2 := by
      rw [number]
      exact count.toNat_lt
    have empty : rest = [] := by
      have behind := drop_next listed
      rw [← ended, List.drop_length] at behind
      exact behind.symm
    refine ⟨relid, namespaceName, name, replicaIdentity, ⟨columns, fits⟩, ?_, same⟩
    rw [split, ← drop_after split (write_u32_length _), first, ← drop_next first, second, ← drop_next second, third,
      counted, ← drop_after counted (write_u16_length _), listed, empty]
    simp only [WireBody.fields, WireColumns.write, writeU16, number, List.append_assoc, List.append_nil]
  · rintro ⟨relid, namespaceName, name, replicaIdentity, ⟨columns, fits⟩, split, same⟩
    have sized := whole_length split (by simp [WireBody.fields])
    have number : (UInt16.ofNat columns.length).toNat = columns.length := UInt16.toNat_ofNat_of_lt' fits
    have written : toBigEndian 2 columns.length = writeU16 (UInt16.ofNat columns.length) := by rw [writeU16, number]
    simp only [WireBody.fields, WireColumns.write, written, List.append_assoc] at split
    have first := drop_after split (write_u32_length _)
    have second := drop_next first
    have third := drop_next second
    have counted := drop_after third (List.length_singleton)
    have listed := drop_after counted (write_u16_length _)
    refine ⟨relid, ⟨_, split⟩, _, _, ⟨namespaceName, rfl, _, first, rfl⟩, _, _, ⟨name, rfl, _, second, rfl⟩,
      UInt16.ofNat columns.length, ⟨_, counted⟩, _, _, ⟨columns, number.symm, rfl, [], ?_, rfl⟩, ?_, same⟩
    · rw [List.append_nil]
      exact listed
    · rw [sized, WireBody.fields, WireColumns.write]
      simp only [List.length_append, write_u32_length, to_big_endian_length, List.length_singleton]
      omega

theorem flag_iff (value : Bool) :
    input[offset]? = some (if value then 1 else 0) ↔ ∃ rest, input.drop offset = writeFlag value ++ rest :=
  byte_iff input offset _

theorem logical_flag (flag : Option UInt8) (value : Bool) :
    logicalFlag flag = .ok value ↔ flag = some (if value then 1 else 0) := by
  unfold logicalFlag
  split <;> cases value <;> simp_all

theorem parse_logical_iff :
    parseLogicalMessage input offset sourceXid = .ok message ↔ ∃ transactional messageLsn messagePrefix content,
      input.drop offset = (WireBody.logical transactional messageLsn messagePrefix content).fields ∧
        (WireBody.logical transactional messageLsn messagePrefix content).message sourceXid = some message := by
  simp only [parseLogicalMessage, parsed_bind, logical_flag, flag_iff, Prod.exists, read_u64_iff, read_cstr_iff,
    read_u32_iff, ok_or_ok, exact_ok, exists_const, parsed_pure, WireBody.message, Option.some.injEq]
  constructor
  · rintro ⟨transactional, ⟨_, split⟩, messageLsn, ⟨_, first⟩, _, _, ⟨messagePrefix, named, _, second, rfl⟩, length,
      ⟨_, third⟩, content, found, ended, same⟩
    subst named
    obtain ⟨_, counted, rest, fourth⟩ := (slice_some_iff _ _ _ _).mp found
    have empty : rest = [] := by
      have behind := drop_after fourth counted
      rw [← ended, List.drop_length] at behind
      exact behind.symm
    have fits : content.length < 256 ^ 4 := by
      rw [counted]
      exact length.toNat_lt
    refine ⟨transactional, messageLsn, messagePrefix, ⟨content, fits⟩, ?_, same⟩
    have afterFlag : input.drop (offset + 1) = _ := drop_after split rfl
    have afterLsn : input.drop (offset + 1 + 8) = _ := drop_after first (write_u64_length _)
    rw [Nat.add_assoc] at afterLsn
    rw [split, ← afterFlag, first, ← afterLsn, second, ← drop_next second, third,
      ← drop_after third (write_u32_length _), fourth, empty]
    simp only [WireBody.fields, WireContent.write, writeU32, counted, List.append_assoc, List.append_nil]
  · rintro ⟨transactional, messageLsn, messagePrefix, ⟨content, fits⟩, split, same⟩
    have sized := whole_length split (by simp [WireBody.fields])
    have number : (UInt32.ofNat content.length).toNat = content.length := UInt32.toNat_ofNat_of_lt' fits
    have written : toBigEndian 4 content.length = writeU32 (UInt32.ofNat content.length) := by rw [writeU32, number]
    simp only [WireBody.fields, WireContent.write, written, List.append_assoc] at split
    have first : input.drop (offset + 1) = _ := drop_after split rfl
    have second : input.drop (offset + 1 + 8) = _ := drop_after first (write_u64_length _)
    rw [Nat.add_assoc] at second
    have third := drop_next second
    have fourth := drop_after third (write_u32_length _)
    have total : input.length = offset + 9 + messagePrefix.write.length + 4 + content.length := by
      rw [sized, WireBody.fields, WireContent.write]
      simp only [List.length_append, write_u64_length, to_big_endian_length, writeFlag, List.length_singleton]
      omega
    refine ⟨transactional, ⟨_, split⟩, messageLsn, ⟨_, first⟩, _, _, ⟨messagePrefix, rfl, _, second, rfl⟩,
      UInt32.ofNat content.length, ⟨_, third⟩, content, ?_, ?_, same⟩
    · rw [number, slice_some_iff]
      exact ⟨by omega, rfl, [], by rw [fourth, List.append_nil]⟩
    · rw [number, total]

@[simp] theorem relids_length (relids : List UInt32) : (relids.flatMap writeU32).length = relids.length * 4 := by
  induction relids with
  | nil => rfl
  | cons relid relids ih =>
      rw [List.flatMap_cons, List.length_append, write_u32_length, ih, List.length_cons]
      omega

-- By induction on the count: each identifier starts where the ones before it end.
theorem read_relids_iff (start count : Nat) (relids : List UInt32) :
    (List.range count).mapM (fun index => readU32 input (start + index * 4)) = .ok relids ↔
      relids.length = count ∧ ∃ rest, input.drop start = relids.flatMap writeU32 ++ rest := by
  induction count generalizing relids with
  | zero =>
      rw [List.range_zero, List.mapM_nil, parsed_pure, List.length_eq_zero_iff, eq_comm]
      exact ⟨fun empty => ⟨empty, input.drop start, by rw [empty]; rfl⟩, fun found => found.1⟩
  | succ count ih =>
      simp only [List.range_succ, List.mapM_append, List.mapM_cons, List.mapM_nil, parsed_bind, parsed_pure, ih,
        read_u32_iff]
      constructor
      · rintro ⟨front, ⟨counted, _, split⟩, _, ⟨last, ⟨rest, tail⟩, _, rfl, rfl⟩, same⟩
        subst same
        refine ⟨by rw [List.length_append, counted]; rfl, rest, ?_⟩
        rw [split, ← drop_after split (by rw [relids_length, counted]), tail]
        simp only [List.flatMap_append, List.flatMap_cons, List.flatMap_nil, List.append_nil, List.append_assoc]
      · rintro ⟨counted, rest, split⟩
        obtain ⟨front, last, rfl⟩ : ∃ front last, relids = front ++ [last] := by
          apply List.eq_nil_or_concat' relids |>.resolve_left
          intro empty
          rw [empty] at counted
          cases counted
        rw [List.length_append, List.length_singleton] at counted
        have fewer := Nat.succ.inj counted
        simp only [List.flatMap_append, List.flatMap_cons, List.flatMap_nil, List.append_nil, List.append_assoc] at split
        have tail := drop_after split (by rw [relids_length, fewer])
        exact ⟨front, ⟨fewer, _, split⟩, [last], ⟨last, ⟨rest, tail⟩, [], rfl, rfl⟩, rfl⟩

-- The two low bits are the options; checked for each of the 256 values of a byte.
theorem options_decompose (options : Fin 256) : UInt8.ofFin options &&& ~~~0b11 = 0 →
    UInt8.ofFin options = (if UInt8.ofFin options &&& 0b01 != 0 then 1 else 0) +
      (if UInt8.ofFin options &&& 0b10 != 0 then 2 else 0) := by
  revert options
  decide +kernel

theorem options_iff (options : UInt8) (cascade restartIdentity : Bool) :
    [options] = writeOptions cascade restartIdentity ↔ options &&& ~~~0b11 = 0 ∧
      (options &&& 0b01 != 0) = cascade ∧ (options &&& 0b10 != 0) = restartIdentity := by
  constructor
  · intro same
    rw [(List.cons.inj same).1]
    cases cascade <;> cases restartIdentity <;> decide
  · rintro ⟨clear, rfl, rfl⟩
    exact congrArg (fun byte => [byte]) (options_decompose options.toFin clear)

theorem parse_truncate_iff :
    parseTruncate input offset sourceXid = .ok message ↔ ∃ relids cascade restartIdentity,
      input.drop offset = (WireBody.truncate relids cascade restartIdentity).fields ∧
        (WireBody.truncate relids cascade restartIdentity).message sourceXid = some message := by
  simp only [parseTruncate, parsed_bind, read_u32_iff, ok_or_ok, byte_iff, require_ok, beq_iff_eq, exists_const, exact_ok,
    read_relids_iff, parsed_pure, WireBody.message, Option.some.injEq]
  constructor
  · rintro ⟨count, ⟨_, split⟩, options, ⟨_, optional⟩, clear, ended, relids, ⟨counted, rest, listed⟩, same⟩
    have written := (options_iff options _ _).mpr ⟨clear, rfl, rfl⟩
    have fits : relids.length < 256 ^ 4 := by
      rw [counted]
      exact count.toNat_lt
    have empty : rest = [] := by
      have behind := drop_next listed
      rw [relids_length, counted, ← ended, List.drop_length] at behind
      exact behind.symm
    refine ⟨⟨relids, fits⟩, _, _, ?_, same⟩
    have afterOptions : input.drop (offset + 4 + 1) = _ := drop_after optional rfl
    rw [split, ← drop_after split (write_u32_length _), optional, ← afterOptions, listed, empty, written]
    simp only [WireBody.fields, writeU32, counted, List.append_assoc, List.append_nil]
  · rintro ⟨⟨relids, fits⟩, cascade, restartIdentity, split, same⟩
    have sized := whole_length split (by simp [WireBody.fields])
    have number : (UInt32.ofNat relids.length).toNat = relids.length := UInt32.toNat_ofNat_of_lt' fits
    have written : toBigEndian 4 relids.length = writeU32 (UInt32.ofNat relids.length) := by rw [writeU32, number]
    simp only [WireBody.fields, written, List.append_assoc] at split
    obtain ⟨options, optionsAre⟩ : ∃ options, [options] = writeOptions cascade restartIdentity := ⟨_, rfl⟩
    obtain ⟨clear, cascades, restarts⟩ := (options_iff options _ _).mp optionsAre
    rw [← optionsAre] at split
    have optional := drop_after split (write_u32_length _)
    have listed : input.drop (offset + 4 + 1) = _ := drop_after optional rfl
    refine ⟨UInt32.ofNat relids.length, ⟨_, split⟩, options, ⟨_, optional⟩, clear, ?_, relids, ⟨number.symm, [], ?_⟩, ?_⟩
    · rw [sized, number, WireBody.fields]
      simp only [List.length_append, to_big_endian_length, writeOptions, List.length_singleton, relids_length]
      omega
    · rw [List.append_nil]
      exact listed
    · rw [cascades, restarts]
      exact same

end Shiba.Replication
