import Shiba.Replication.Layouts

set_option autoImplicit false

namespace Shiba.Replication

open Layout

theorem word_code {Word : Type} {width : Nat} {wide : Word → Nat}
    (apart : ∀ first second, wide first = wide second → first = second) (small : ∀ value, wide value < 256 ^ width) :
    PrefixCode fun value => toBigEndian width (wide value) := by
  apply PrefixCode.map (big_endian_code width) (fun value : Word => (⟨wide value, small value⟩ : Fin (256 ^ width)))
  intro first second same
  exact apart first second (congrArg Fin.val same)

theorem u32_code : PrefixCode writeU32 := word_code (fun _ _ => UInt32.toNat_inj.mp) UInt32.toNat_lt
theorem u64_code : PrefixCode writeU64 := word_code (fun _ _ => UInt64.toNat_inj.mp) UInt64.toNat_lt

theorem i64_code : PrefixCode writeI64 :=
  PrefixCode.map u64_code Int64.toUInt64 fun _ _ same => by
    have back := congrArg UInt64.toInt64 same
    rwa [Int64.toInt64_toUInt64, Int64.toInt64_toUInt64] at back

theorem xid_code : PrefixCode fun xid : Xid => writeU32 xid.val :=
  PrefixCode.map u32_code Subtype.val fun _ _ => Subtype.ext

theorem wire_xid_code (context : ParseContext) : PrefixCode (WireXid.write context) := by
  cases context with
  | nonStreaming => exact fun _ _ _ _ same => ⟨rfl, same⟩
  | streaming => exact xid_code

theorem flag_code : PrefixCode writeFlag :=
  PrefixCode.map PrefixCode.byte (fun value : Bool => (if value then 1 else 0 : UInt8)) (by decide)

theorem old_tag_code : PrefixCode writeOldTag :=
  PrefixCode.map PrefixCode.byte (fun whole : Bool => if whole then 'O'.toUInt8 else 'K'.toUInt8) (by decide)

theorem options_code : PrefixCode fun options : Bool × Bool => writeOptions options.1 options.2 :=
  PrefixCode.map PrefixCode.byte
    (fun options : Bool × Bool => ((if options.1 then 1 else 0) + (if options.2 then 2 else 0) : UInt8)) (by decide)

theorem utf8_apart {first second : String} (same : utf8 first = utf8 second) : first = second := by
  have found := (from_utf8_some (utf8 first) second).mpr same
  rw [(from_utf8_some (utf8 first) first).mpr rfl] at found
  exact Option.some.inj found

theorem cstring_code : PrefixCode CString.write := by
  refine PrefixCode.map (PrefixCode.terminated 0)
    (fun name : CString => (⟨utf8 name.text, name.clean⟩ : { text : Bytes // (0 : UInt8) ∉ text })) ?_
  rintro ⟨first, _⟩ ⟨second, _⟩ same
  have texts := utf8_apart (congrArg Subtype.val same)
  subst texts
  rfl

theorem content_code : PrefixCode WireContent.write := by
  have code := PrefixCode.counted PrefixCode.byte (big_endian_code 4)
  intro first second after other same
  apply code first second after other
  simpa [WireContent.write] using same

theorem column_code : PrefixCode WireColumn.write :=
  PrefixCode.map (((PrefixCode.byte.pair cstring_code).pair u32_code).pair u32_code)
    (fun column : WireColumn => (((column.flags, column.name), column.typeOid), column.typeModifier))
    (fun first second same => by
      cases first
      cases second
      simpa [and_assoc] using same)

theorem value_code : PrefixCode WireValue.write := by
  rintro ⟨first, fits⟩ ⟨second, fits'⟩ after other same
  cases first with
  | text content =>
      cases second with
      | text content' =>
          have code := (PrefixCode.constant ['t'.toUInt8]).pair content_code
          obtain ⟨values, rest⟩ := code ((), ⟨utf8 content, fits⟩) ((), ⟨utf8 content', fits'⟩) after other
            (by simpa [WireValue.write, WireContent.write] using same)
          have texts := utf8_apart (congrArg Subtype.val (Prod.mk.inj values).2)
          exact ⟨Subtype.ext (congrArg ParsedTupleValue.text texts), rest⟩
      | _ => simp +decide [WireValue.write] at same
  | null =>
      cases second with
      | null => exact ⟨rfl, List.append_cancel_left same⟩
      | _ => simp +decide [WireValue.write] at same
  | unchangedToast =>
      cases second with
      | unchangedToast => exact ⟨rfl, List.append_cancel_left same⟩
      | _ => simp +decide [WireValue.write] at same

theorem columns_code : PrefixCode WireColumns.write := PrefixCode.counted column_code (big_endian_code 2)
theorem tuple_code : PrefixCode WireTuple.write := PrefixCode.counted value_code (big_endian_code 2)

-- The number of identifiers stands in front of the options, not of the identifiers.
theorem relids_code : PrefixCode fun truncate : WireRelids × Bool × Bool =>
    toBigEndian 4 truncate.1.val.length ++ writeOptions truncate.2.1 truncate.2.2 ++ truncate.1.val.flatMap writeU32 := by
  rintro ⟨first, options⟩ ⟨second, options'⟩ after other same
  have heads := (big_endian_code 4).pair options_code
  rw [List.append_assoc, List.append_assoc _ _ other] at same
  obtain ⟨head, tail⟩ := heads (⟨_, first.property⟩, options) (⟨_, second.property⟩, options') _ _ same
  obtain ⟨counts, flags⟩ := Prod.mk.inj head
  obtain ⟨relids, rest⟩ := PrefixCode.items u32_code _ _ _ _ (congrArg Fin.val counts) tail
  exact ⟨Prod.ext (Subtype.ext relids) flags, rest⟩

theorem body_code (first second : WireBody) (tags : first.tag = second.tag) (after other : Bytes)
    (same : first.fields ++ after = second.fields ++ other) : first = second ∧ after = other := by
  cases first with
  | relation relid namespaceName name replicaIdentity columns =>
      cases second with
      | relation relid' namespaceName' name' replicaIdentity' columns' =>
          have code := (((u32_code.pair cstring_code).pair cstring_code).pair PrefixCode.byte).pair columns_code
          obtain ⟨values, rest⟩ := code ((((relid, namespaceName), name), replicaIdentity), columns)
            ((((relid', namespaceName'), name'), replicaIdentity'), columns') after other same
          simp only [Prod.mk.injEq] at values
          obtain ⟨⟨⟨⟨rfl, rfl⟩, rfl⟩, rfl⟩, rfl⟩ := values
          exact ⟨rfl, rest⟩
      | _ => simp +decide [WireBody.tag] at tags
  | type typeid namespaceName name =>
      cases second with
      | type typeid' namespaceName' name' =>
          have code := (u32_code.pair cstring_code).pair cstring_code
          obtain ⟨values, rest⟩ := code ((typeid, namespaceName), name) ((typeid', namespaceName'), name') after other same
          simp only [Prod.mk.injEq] at values
          obtain ⟨⟨rfl, rfl⟩, rfl⟩ := values
          exact ⟨rfl, rest⟩
      | _ => simp +decide [WireBody.tag] at tags
  | logical transactional messageLsn messagePrefix content =>
      cases second with
      | logical transactional' messageLsn' messagePrefix' content' =>
          have code := ((flag_code.pair u64_code).pair cstring_code).pair content_code
          obtain ⟨values, rest⟩ := code (((transactional, messageLsn), messagePrefix), content)
            (((transactional', messageLsn'), messagePrefix'), content') after other same
          simp only [Prod.mk.injEq] at values
          obtain ⟨⟨⟨rfl, rfl⟩, rfl⟩, rfl⟩ := values
          exact ⟨rfl, rest⟩
      | _ => simp +decide [WireBody.tag] at tags
  | insert relid row =>
      cases second with
      | insert relid' row' =>
          have code := (u32_code.pair (PrefixCode.constant ['N'.toUInt8])).pair tuple_code
          obtain ⟨values, rest⟩ := code ((relid, ()), row) ((relid', ()), row') after other same
          simp only [Prod.mk.injEq] at values
          obtain ⟨⟨rfl, _⟩, rfl⟩ := values
          exact ⟨rfl, rest⟩
      | _ => simp +decide [WireBody.tag] at tags
  | update relid whole old new =>
      cases second with
      | update relid' whole' old' new' =>
          have code := (((u32_code.pair old_tag_code).pair tuple_code).pair (PrefixCode.constant ['N'.toUInt8])).pair
            tuple_code
          obtain ⟨values, rest⟩ := code ((((relid, whole), old), ()), new) ((((relid', whole'), old'), ()), new')
            after other same
          simp only [Prod.mk.injEq] at values
          obtain ⟨⟨⟨⟨rfl, rfl⟩, rfl⟩, _⟩, rfl⟩ := values
          exact ⟨rfl, rest⟩
      | _ => simp +decide [WireBody.tag] at tags
  | delete relid whole old =>
      cases second with
      | delete relid' whole' old' =>
          have code := (u32_code.pair old_tag_code).pair tuple_code
          obtain ⟨values, rest⟩ := code ((relid, whole), old) ((relid', whole'), old') after other same
          simp only [Prod.mk.injEq] at values
          obtain ⟨⟨rfl, rfl⟩, rfl⟩ := values
          exact ⟨rfl, rest⟩
      | _ => simp +decide [WireBody.tag] at tags
  | truncate relids cascade restartIdentity =>
      cases second with
      | truncate relids' cascade' restartIdentity' =>
          obtain ⟨values, rest⟩ := relids_code (relids, cascade, restartIdentity)
            (relids', cascade', restartIdentity') after other same
          simp only [Prod.mk.injEq] at values
          obtain ⟨rfl, rfl, rfl⟩ := values
          exact ⟨rfl, rest⟩
      | _ => simp +decide [WireBody.tag] at tags

def controlTags : List UInt8 :=
  ['B'.toUInt8, 'C'.toUInt8, 'S'.toUInt8, 'E'.toUInt8, 'c'.toUInt8, 'A'.toUInt8, 'O'.toUInt8]

theorem body_not_control (body : WireBody) : body.tag ∉ controlTags := by
  cases body <;> simp +decide [WireBody.tag]

section

variable {context : ParseContext}

theorem change_of_tag (wire : WireMessage context) (other : wire.tag ∉ controlTags) :
    ∃ xid body, wire = .change xid body := by
  cases wire with
  | change xid body => exact ⟨xid, body, rfl⟩
  | _ => simp +decide [WireMessage.tag] at other

theorem change_of_body {wire : WireMessage context} {body : WireBody} (tags : wire.tag = body.tag) :
    ∃ xid other, wire = .change xid other :=
  change_of_tag wire (tags ▸ body_not_control body)

theorem fields_code {first second : WireMessage context} (tags : first.tag = second.tag) {after other : Bytes}
    (same : first.fields ++ after = second.fields ++ other) : first = second ∧ after = other := by
  cases first with
  | begin finalLsn commitTime xid =>
      cases second with
      | begin finalLsn' commitTime' xid' =>
          have code := (u64_code.pair u64_code).pair u32_code
          obtain ⟨values, rest⟩ := code ((finalLsn, commitTime), xid) ((finalLsn', commitTime'), xid') after other same
          simp only [Prod.mk.injEq] at values
          obtain ⟨⟨rfl, rfl⟩, rfl⟩ := values
          exact ⟨rfl, rest⟩
      | change _ body =>
          obtain ⟨_, _, control⟩ := change_of_body tags
          cases control
      | _ => simp +decide [WireMessage.tag] at tags
  | commit commitLsn endLsn commitTime =>
      cases second with
      | commit commitLsn' endLsn' commitTime' =>
          have code := (((PrefixCode.constant [0]).pair u64_code).pair u64_code).pair u64_code
          obtain ⟨values, rest⟩ := code ((((), commitLsn), endLsn), commitTime) ((((), commitLsn'), endLsn'), commitTime')
            after other same
          simp only [Prod.mk.injEq] at values
          obtain ⟨⟨⟨_, rfl⟩, rfl⟩, rfl⟩ := values
          exact ⟨rfl, rest⟩
      | change _ body =>
          obtain ⟨_, _, control⟩ := change_of_body tags
          cases control
      | _ => simp +decide [WireMessage.tag] at tags
  | streamStart xid firstSegment =>
      cases second with
      | streamStart xid' firstSegment' =>
          obtain ⟨values, rest⟩ := (xid_code.pair flag_code) (xid, firstSegment) (xid', firstSegment') after other same
          obtain ⟨rfl, rfl⟩ := Prod.mk.inj values
          exact ⟨rfl, rest⟩
      | change _ body =>
          obtain ⟨_, _, control⟩ := change_of_body tags
          cases control
      | _ => simp +decide [WireMessage.tag] at tags
  | streamStop =>
      cases second with
      | streamStop => exact ⟨rfl, same⟩
      | change _ body =>
          obtain ⟨_, _, control⟩ := change_of_body tags
          cases control
      | _ => simp +decide [WireMessage.tag] at tags
  | streamCommit xid commitLsn endLsn commitTime =>
      cases second with
      | streamCommit xid' commitLsn' endLsn' commitTime' =>
          have code := (((xid_code.pair (PrefixCode.constant [0])).pair u64_code).pair u64_code).pair i64_code
          obtain ⟨values, rest⟩ := code ((((xid, ()), commitLsn), endLsn), commitTime)
            ((((xid', ()), commitLsn'), endLsn'), commitTime') after other same
          simp only [Prod.mk.injEq] at values
          obtain ⟨⟨⟨⟨rfl, _⟩, rfl⟩, rfl⟩, rfl⟩ := values
          exact ⟨rfl, rest⟩
      | change _ body =>
          obtain ⟨_, _, control⟩ := change_of_body tags
          cases control
      | _ => simp +decide [WireMessage.tag] at tags
  | streamAbort xid subxid =>
      cases second with
      | streamAbort xid' subxid' =>
          obtain ⟨values, rest⟩ := (xid_code.pair xid_code) (xid, subxid) (xid', subxid') after other same
          obtain ⟨rfl, rfl⟩ := Prod.mk.inj values
          exact ⟨rfl, rest⟩
      | change _ body =>
          obtain ⟨_, _, control⟩ := change_of_body tags
          cases control
      | _ => simp +decide [WireMessage.tag] at tags
  | origin originLsn name =>
      cases second with
      | origin originLsn' name' =>
          obtain ⟨values, rest⟩ := (u64_code.pair cstring_code) (originLsn, name) (originLsn', name') after other same
          obtain ⟨rfl, rfl⟩ := Prod.mk.inj values
          exact ⟨rfl, rest⟩
      | change _ body =>
          obtain ⟨_, _, control⟩ := change_of_body tags
          cases control
      | _ => simp +decide [WireMessage.tag] at tags
  | change xid body =>
      obtain ⟨xid', body', rfl⟩ := change_of_body tags.symm
      simp only [WireMessage.fields, List.append_assoc] at same
      obtain ⟨xids, bodies⟩ := wire_xid_code context _ _ _ _ same
      obtain ⟨values, rest⟩ := body_code _ _ tags _ _ bodies
      exact ⟨by rw [xids, values], rest⟩

end

theorem encode_code (context : ParseContext) : PrefixCode fun wire : WireMessage context => wire.encode := by
  intro first second after other same
  obtain ⟨tags, fields⟩ := List.cons.inj same
  exact fields_code tags fields

end Shiba.Replication
