import Shiba.Replication.Unambiguous

set_option autoImplicit false

namespace Shiba.Replication

open Layout

-- What the parser behind a tag of changes accepts: the bodies with that tag.
def ReadsBody (tag : UInt8) (parser : Bytes → Nat → Option UInt32 → Parsed Message) : Prop :=
  ∀ (input : Bytes) (offset : Nat) (sourceXid : Option UInt32) (message : Message),
    parser input offset sourceXid = .ok message ↔ ∃ body : WireBody, body.tag = tag ∧
      input.drop offset = body.fields ∧ body.message sourceXid = some message

theorem reads_relation : ReadsBody 'R'.toUInt8 parseRelation := by
  intro input offset sourceXid message
  rw [parse_relation_iff]
  constructor
  · rintro ⟨relid, namespaceName, name, replicaIdentity, columns, split, said⟩
    exact ⟨.relation relid namespaceName name replicaIdentity columns, rfl, split, said⟩
  · rintro ⟨body, tagged, split, said⟩
    cases body with
    | relation relid namespaceName name replicaIdentity columns =>
        exact ⟨relid, namespaceName, name, replicaIdentity, columns, split, said⟩
    | _ => simp +decide [WireBody.tag] at tagged

theorem reads_type : ReadsBody 'Y'.toUInt8 parseType := by
  intro input offset sourceXid message
  rw [parse_type_iff]
  constructor
  · rintro ⟨typeid, namespaceName, name, split, said⟩
    exact ⟨.type typeid namespaceName name, rfl, split, said⟩
  · rintro ⟨body, tagged, split, said⟩
    cases body with
    | type typeid namespaceName name => exact ⟨typeid, namespaceName, name, split, said⟩
    | _ => simp +decide [WireBody.tag] at tagged

theorem reads_logical : ReadsBody 'M'.toUInt8 parseLogicalMessage := by
  intro input offset sourceXid message
  rw [parse_logical_iff]
  constructor
  · rintro ⟨transactional, messageLsn, messagePrefix, content, split, said⟩
    exact ⟨.logical transactional messageLsn messagePrefix content, rfl, split, said⟩
  · rintro ⟨body, tagged, split, said⟩
    cases body with
    | logical transactional messageLsn messagePrefix content =>
        exact ⟨transactional, messageLsn, messagePrefix, content, split, said⟩
    | _ => simp +decide [WireBody.tag] at tagged

theorem reads_insert : ReadsBody 'I'.toUInt8 parseInsert := by
  intro input offset sourceXid message
  rw [parse_insert_iff]
  constructor
  · rintro ⟨relid, row, split, said⟩
    exact ⟨.insert relid row, rfl, split, said⟩
  · rintro ⟨body, tagged, split, said⟩
    cases body with
    | insert relid row => exact ⟨relid, row, split, said⟩
    | _ => simp +decide [WireBody.tag] at tagged

theorem reads_update : ReadsBody 'U'.toUInt8 parseUpdate := by
  intro input offset sourceXid message
  rw [parse_update_iff]
  constructor
  · rintro ⟨relid, whole, old, new, split, said⟩
    exact ⟨.update relid whole old new, rfl, split, said⟩
  · rintro ⟨body, tagged, split, said⟩
    cases body with
    | update relid whole old new => exact ⟨relid, whole, old, new, split, said⟩
    | _ => simp +decide [WireBody.tag] at tagged

theorem reads_delete : ReadsBody 'D'.toUInt8 parseDelete := by
  intro input offset sourceXid message
  rw [parse_delete_iff]
  constructor
  · rintro ⟨relid, whole, old, split, said⟩
    exact ⟨.delete relid whole old, rfl, split, said⟩
  · rintro ⟨body, tagged, split, said⟩
    cases body with
    | delete relid whole old => exact ⟨relid, whole, old, split, said⟩
    | _ => simp +decide [WireBody.tag] at tagged

theorem reads_truncate : ReadsBody 'T'.toUInt8 parseTruncate := by
  intro input offset sourceXid message
  rw [parse_truncate_iff]
  constructor
  · rintro ⟨relids, cascade, restartIdentity, split, said⟩
    exact ⟨.truncate relids cascade restartIdentity, rfl, split, said⟩
  · rintro ⟨body, tagged, split, said⟩
    cases body with
    | truncate relids cascade restartIdentity => exact ⟨relids, cascade, restartIdentity, split, said⟩
    | _ => simp +decide [WireBody.tag] at tagged

-- The same for a whole message in its context.
def ReadsTag (context : ParseContext) (tag : UInt8) (parser : Bytes → Parsed Message) : Prop :=
  ∀ (rest : Bytes) (message : Message), parser (tag :: rest) = .ok message ↔
    ∃ wire : WireMessage context, wire.tag = tag ∧ rest = wire.fields ∧ wire.message = some message

section Control

variable (context : ParseContext)

theorem reads_begin : ReadsTag context 'B'.toUInt8 parseBegin := by
  intro rest message
  simp only [parseBegin, parsed_bind, exact_ok, exists_const, read_u64_iff, read_u32_iff, parsed_pure, List.drop_succ_cons,
    List.length_cons]
  constructor
  · rintro ⟨sized, finalLsn, ⟨_, first⟩, xid, ⟨last, third⟩, same⟩
    obtain ⟨commitTime, _, second⟩ := skipped_u64 rest 8 (by omega)
    have empty := nothing_left third (by simp) (by simp only [write_u32_length]; omega)
    have afterFirst : rest.drop 8 = _ := drop_after first (write_u64_length _)
    have afterSecond : rest.drop 16 = _ := drop_after second (write_u64_length _)
    refine ⟨.begin finalLsn commitTime xid, rfl, ?_, congrArg some same⟩
    change rest.drop 0 = _
    rw [first, ← afterFirst, second, ← afterSecond, third, empty]
    simp only [WireMessage.fields, List.append_assoc, List.append_nil]
  · rintro ⟨wire, tagged, split, said⟩
    cases wire with
    | begin finalLsn commitTime xid =>
        simp only [WireMessage.fields, List.append_assoc] at split
        have first : rest.drop 0 = _ := split
        have second : rest.drop 8 = _ := drop_after first (write_u64_length _)
        have third : rest.drop 16 = _ := drop_after second (write_u64_length _)
        refine ⟨by rw [split]; simp, finalLsn, ⟨_, split⟩, xid, ⟨[], by rw [third, List.append_nil]⟩, Option.some.inj said⟩
    | change _ body => cases body <;> simp +decide [WireMessage.tag, WireBody.tag] at tagged
    | _ => simp +decide [WireMessage.tag] at tagged

theorem reads_commit : ReadsTag context 'C'.toUInt8 parseCommit := by
  intro rest message
  simp only [parseCommit, parsed_bind, exact_ok, zero_flag_iff, exists_const, read_u64_iff, parsed_pure,
    List.drop_succ_cons, List.length_cons]
  constructor
  · rintro ⟨sized, ⟨_, flag⟩, commitLsn, ⟨_, first⟩, endLsn, ⟨_, second⟩, same⟩
    obtain ⟨commitTime, last, third⟩ := skipped_u64 rest 17 (by omega)
    have empty := nothing_left third (by simp) (by simp only [write_u64_length]; omega)
    have afterFlag : rest.drop 1 = _ := drop_after flag (List.length_singleton)
    have afterFirst : rest.drop 9 = _ := drop_after first (write_u64_length _)
    have afterSecond : rest.drop 17 = _ := drop_after second (write_u64_length _)
    refine ⟨.commit commitLsn endLsn commitTime, rfl, ?_, congrArg some same⟩
    change rest.drop 0 = _
    rw [flag, ← afterFlag, first, ← afterFirst, second, ← afterSecond, third, empty]
    simp only [WireMessage.fields, List.append_assoc, List.append_nil]
  · rintro ⟨wire, tagged, split, said⟩
    cases wire with
    | commit commitLsn endLsn commitTime =>
        simp only [WireMessage.fields, List.append_assoc] at split
        have flag : rest.drop 0 = _ := split
        have first : rest.drop 1 = _ := drop_after flag (List.length_singleton)
        have second : rest.drop 9 = _ := drop_after first (write_u64_length _)
        exact ⟨by rw [split]; simp, ⟨_, flag⟩, commitLsn, ⟨_, first⟩, endLsn, ⟨_, second⟩, Option.some.inj said⟩
    | change _ body => cases body <;> simp +decide [WireMessage.tag, WireBody.tag] at tagged
    | _ => simp +decide [WireMessage.tag] at tagged

theorem first_segment_flag (flag : Option UInt8) (value : Bool) :
    firstSegmentFlag flag = .ok value ↔ flag = some (if value then 1 else 0) := by
  unfold firstSegmentFlag
  split <;> cases value <;> simp_all

theorem reads_stream_start : ReadsTag context 'S'.toUInt8 parseStreamStart := by
  intro rest message
  simp only [parseStreamStart, parsed_bind, exact_ok, require_ok, bne_iff_ne, first_segment_flag, flag_iff, exists_const,
    read_u32_iff, parsed_pure, List.drop_succ_cons, List.length_cons]
  constructor
  · rintro ⟨sized, xid, ⟨_, first⟩, present, firstSegment, ⟨last, second⟩, same⟩
    have empty := nothing_left second (by simp [writeFlag]) (by simp only [writeFlag, List.length_singleton]; omega)
    have afterFirst : rest.drop 4 = _ := drop_after first (write_u32_length _)
    refine ⟨.streamStart ⟨xid, present⟩ firstSegment, rfl, ?_, congrArg some same⟩
    change rest.drop 0 = _
    rw [first, ← afterFirst, second, empty, List.append_nil]
    rfl
  · rintro ⟨wire, tagged, split, said⟩
    cases wire with
    | streamStart xid firstSegment =>
        have first : rest.drop 0 = _ := split
        have second : rest.drop 4 = _ := drop_after first (write_u32_length _)
        exact ⟨by rw [split]; simp [WireMessage.fields, writeFlag], xid.val, ⟨_, first⟩, xid.property, firstSegment,
          ⟨[], by rw [second, List.append_nil]⟩, Option.some.inj said⟩
    | change _ body => cases body <;> simp +decide [WireMessage.tag, WireBody.tag] at tagged
    | _ => simp +decide [WireMessage.tag] at tagged

theorem reads_stream_stop : ReadsTag context 'E'.toUInt8 parseStreamStop := by
  intro rest message
  simp only [parseStreamStop, parsed_bind, exact_ok, exists_const, parsed_pure, List.length_cons]
  constructor
  · rintro ⟨sized, same⟩
    exact ⟨.streamStop, rfl, List.length_eq_zero_iff.mp (Nat.succ.inj sized), congrArg some same⟩
  · rintro ⟨wire, tagged, split, said⟩
    cases wire with
    | streamStop => exact ⟨by rw [split]; rfl, Option.some.inj said⟩
    | change _ body => cases body <;> simp +decide [WireMessage.tag, WireBody.tag] at tagged
    | _ => simp +decide [WireMessage.tag] at tagged

theorem reads_stream_commit : ReadsTag context 'c'.toUInt8 parseStreamCommit := by
  intro rest message
  simp only [parseStreamCommit, parsed_bind, exact_ok, zero_flag_iff, require_ok, bne_iff_ne, ok_or_ok, byte_iff,
    exists_const, read_u32_iff, read_u64_iff, read_i64_iff, parsed_pure, List.drop_succ_cons, List.length_cons]
  constructor
  · rintro ⟨sized, ⟨_, clear⟩, xid, ⟨_, first⟩, present, flags, ⟨_, flagged⟩, commitLsn, ⟨_, second⟩, endLsn, ⟨_, third⟩,
      commitTime, ⟨last, fourth⟩, same⟩
    have zero : flags = 0 := by
      rw [clear] at flagged
      exact ((List.cons.inj flagged).1).symm
    subst zero
    have empty := nothing_left fourth (by simp) (by simp only [write_i64_length]; omega)
    have afterFirst : rest.drop 4 = _ := drop_after first (write_u32_length _)
    have afterFlag : rest.drop 5 = _ := drop_after flagged (List.length_singleton)
    have afterSecond : rest.drop 13 = _ := drop_after second (write_u64_length _)
    have afterThird : rest.drop 21 = _ := drop_after third (write_u64_length _)
    refine ⟨.streamCommit ⟨xid, present⟩ commitLsn endLsn commitTime, rfl, ?_, congrArg some same⟩
    change rest.drop 0 = _
    rw [first, ← afterFirst, flagged, ← afterFlag, second, ← afterSecond, third, ← afterThird, fourth, empty]
    simp only [WireMessage.fields, List.append_assoc, List.append_nil]
  · rintro ⟨wire, tagged, split, said⟩
    cases wire with
    | streamCommit xid commitLsn endLsn commitTime =>
        simp only [WireMessage.fields, List.append_assoc] at split
        have first : rest.drop 0 = _ := split
        have flag : rest.drop 4 = _ := drop_after first (write_u32_length _)
        have second : rest.drop 5 = _ := drop_after flag (List.length_singleton)
        have third : rest.drop 13 = _ := drop_after second (write_u64_length _)
        have fourth : rest.drop 21 = _ := drop_after third (write_u64_length _)
        exact ⟨by rw [split]; simp, ⟨_, flag⟩, xid.val, ⟨_, first⟩, xid.property, 0, ⟨_, flag⟩, commitLsn, ⟨_, second⟩,
          endLsn, ⟨_, third⟩, commitTime, ⟨[], by rw [fourth, List.append_nil]⟩, Option.some.inj said⟩
    | change _ body => cases body <;> simp +decide [WireMessage.tag, WireBody.tag] at tagged
    | _ => simp +decide [WireMessage.tag] at tagged

theorem reads_stream_abort : ReadsTag context 'A'.toUInt8 parseStreamAbort := by
  intro rest message
  simp only [parseStreamAbort, parsed_bind, exact_ok, require_ok, Bool.and_eq_true, bne_iff_ne, exists_const,
    read_u32_iff, parsed_pure, List.drop_succ_cons, List.length_cons]
  constructor
  · rintro ⟨sized, xid, ⟨_, first⟩, subxid, ⟨last, second⟩, ⟨present, subpresent⟩, same⟩
    have empty := nothing_left second (by simp) (by simp only [write_u32_length]; omega)
    have afterFirst : rest.drop 4 = _ := drop_after first (write_u32_length _)
    refine ⟨.streamAbort ⟨xid, present⟩ ⟨subxid, subpresent⟩, rfl, ?_, congrArg some same⟩
    change rest.drop 0 = _
    rw [first, ← afterFirst, second, empty, List.append_nil]
    rfl
  · rintro ⟨wire, tagged, split, said⟩
    cases wire with
    | streamAbort xid subxid =>
        have first : rest.drop 0 = _ := split
        have second : rest.drop 4 = _ := drop_after first (write_u32_length _)
        exact ⟨by rw [split]; simp [WireMessage.fields], xid.val, ⟨_, first⟩, subxid.val,
          ⟨[], by rw [second, List.append_nil]⟩, ⟨xid.property, subxid.property⟩, Option.some.inj said⟩
    | change _ body => cases body <;> simp +decide [WireMessage.tag, WireBody.tag] at tagged
    | _ => simp +decide [WireMessage.tag] at tagged

theorem reads_origin : ReadsTag context 'O'.toUInt8 parseOrigin := by
  intro rest message
  simp only [parseOrigin, parsed_bind, Prod.exists, exact_ok, exists_const, read_u64_iff, read_cstr_iff, parsed_pure,
    List.drop_succ_cons, List.length_cons]
  constructor
  · rintro ⟨originLsn, ⟨_, first⟩, _, _, ⟨name, named, last, second, rfl⟩, ended, same⟩
    subst named
    have empty := nothing_left second (by simp [CString.write]) (by omega)
    have afterFirst : rest.drop 8 = _ := drop_after first (write_u64_length _)
    refine ⟨.origin originLsn name, rfl, ?_, congrArg some same⟩
    change rest.drop 0 = _
    rw [first, ← afterFirst, second, empty, List.append_nil]
    rfl
  · rintro ⟨wire, tagged, split, said⟩
    cases wire with
    | origin originLsn name =>
        have first : rest.drop 0 = _ := split
        have second : rest.drop 8 = _ := drop_after first (write_u64_length _)
        refine ⟨originLsn, ⟨_, first⟩, _, _, ⟨name, rfl, [], by rw [second, List.append_nil], rfl⟩, ?_,
          Option.some.inj said⟩
        rw [split, WireMessage.fields, List.length_append, write_u64_length]
        omega
    | change _ body => cases body <;> simp +decide [WireMessage.tag, WireBody.tag] at tagged
    | _ => simp +decide [WireMessage.tag] at tagged

theorem reads_transactional {tag : UInt8} {parser : Bytes → Nat → Option UInt32 → Parsed Message}
    (reads : ReadsBody tag parser) (other : tag ∉ controlTags) :
    ReadsTag context tag fun input => parseTransactional input context parser := by
  intro rest message
  have reached : (parseTransactional (tag :: rest) context parser = .ok message) ↔
      ∃ (xid : WireXid context) (body : WireBody), body.tag = tag ∧ rest = WireXid.write context xid ++ body.fields ∧
        body.message (WireXid.sourceXid context xid) = some message := by
    cases context with
    | nonStreaming =>
        rw [parseTransactional, reads]
        constructor
        · rintro ⟨body, tagged, split, said⟩
          exact ⟨(), body, tagged, split, said⟩
        · rintro ⟨_, body, tagged, split, said⟩
          exact ⟨body, tagged, split, said⟩
    | streaming =>
        simp only [parseTransactional, parsed_bind, read_u32_iff, require_ok, bne_iff_ne, exists_const, reads _ _ _ _,
          List.drop_succ_cons]
        constructor
        · rintro ⟨xid, ⟨_, first⟩, present, body, tagged, split, said⟩
          have afterFirst : rest.drop 4 = _ := drop_after first (write_u32_length _)
          refine ⟨⟨xid, present⟩, body, tagged, ?_, said⟩
          change rest.drop 0 = _
          rw [first, ← afterFirst, split]
          rfl
        · rintro ⟨xid, body, tagged, split, said⟩
          have first : rest.drop 0 = _ := split
          have behind : rest.drop 4 = _ := drop_after first (write_u32_length _)
          exact ⟨xid.val, ⟨_, first⟩, xid.property, body, tagged, behind, said⟩
  rw [reached]
  constructor
  · rintro ⟨xid, body, tagged, split, said⟩
    exact ⟨.change xid body, tagged, split, said⟩
  · rintro ⟨wire, tagged, split, said⟩
    obtain ⟨xid, body, rfl⟩ := change_of_tag wire (tagged ▸ other)
    exact ⟨xid, body, tagged, split, said⟩

-- One parser stands behind each tag, and it accepts what carries that tag.
theorem parsed_by_tag (tag : UInt8) : ∃ parser : Bytes → Parsed Message, ReadsTag context tag parser ∧
    ∀ rest, parseWithContext (tag :: rest) context = parser (tag :: rest) := by
  by_cases begins : tag = 'B'.toUInt8
  · exact ⟨parseBegin, begins ▸ reads_begin context, fun _ => begins ▸ rfl⟩
  by_cases commits : tag = 'C'.toUInt8
  · exact ⟨parseCommit, commits ▸ reads_commit context, fun _ => commits ▸ rfl⟩
  by_cases starts : tag = 'S'.toUInt8
  · exact ⟨parseStreamStart, starts ▸ reads_stream_start context, fun _ => starts ▸ rfl⟩
  by_cases stops : tag = 'E'.toUInt8
  · exact ⟨parseStreamStop, stops ▸ reads_stream_stop context, fun _ => stops ▸ rfl⟩
  by_cases streamCommits : tag = 'c'.toUInt8
  · exact ⟨parseStreamCommit, streamCommits ▸ reads_stream_commit context, fun _ => streamCommits ▸ rfl⟩
  by_cases aborts : tag = 'A'.toUInt8
  · exact ⟨parseStreamAbort, aborts ▸ reads_stream_abort context, fun _ => aborts ▸ rfl⟩
  by_cases origins : tag = 'O'.toUInt8
  · exact ⟨parseOrigin, origins ▸ reads_origin context, fun _ => origins ▸ rfl⟩
  by_cases relations : tag = 'R'.toUInt8
  · exact ⟨_, relations ▸ reads_transactional context reads_relation (by decide), fun _ => relations ▸ rfl⟩
  by_cases types : tag = 'Y'.toUInt8
  · exact ⟨_, types ▸ reads_transactional context reads_type (by decide), fun _ => types ▸ rfl⟩
  by_cases logicals : tag = 'M'.toUInt8
  · exact ⟨_, logicals ▸ reads_transactional context reads_logical (by decide), fun _ => logicals ▸ rfl⟩
  by_cases inserts : tag = 'I'.toUInt8
  · exact ⟨_, inserts ▸ reads_transactional context reads_insert (by decide), fun _ => inserts ▸ rfl⟩
  by_cases updates : tag = 'U'.toUInt8
  · exact ⟨_, updates ▸ reads_transactional context reads_update (by decide), fun _ => updates ▸ rfl⟩
  by_cases deletes : tag = 'D'.toUInt8
  · exact ⟨_, deletes ▸ reads_transactional context reads_delete (by decide), fun _ => deletes ▸ rfl⟩
  by_cases truncates : tag = 'T'.toUInt8
  · exact ⟨_, truncates ▸ reads_transactional context reads_truncate (by decide), fun _ => truncates ▸ rfl⟩
  refine ⟨fun _ => .error "unsupported or truncated pgoutput message", ?_, ?_⟩
  · intro rest message
    constructor
    · intro parsed
      cases parsed
    · rintro ⟨wire, tagged, _⟩
      subst tagged
      cases wire with
      | change _ body => cases body <;> simp [WireMessage.tag, WireBody.tag] at *
      | _ => simp [WireMessage.tag] at *
  · intro rest
    simp [parseWithContext, okOr, bind, Except.bind, throw, throwThe, MonadExceptOf.throw, *]

theorem parse_iff (input : Bytes) (message : Message) :
    parseWithContext input context = .ok message ↔
      ∃ wire : WireMessage context, wire.encode = input ∧ wire.message = some message := by
  cases input with
  | nil =>
      constructor
      · intro parsed
        cases parsed
      · rintro ⟨_, empty, _⟩
        cases empty
  | cons tag rest =>
      obtain ⟨parser, reads, same⟩ := parsed_by_tag context tag
      rw [same, reads]
      constructor
      · rintro ⟨wire, tagged, split, said⟩
        exact ⟨wire, by rw [WireMessage.encode, tagged, split], said⟩
      · rintro ⟨wire, encoded, said⟩
        obtain ⟨tagged, split⟩ := List.cons.inj encoded
        exact ⟨wire, tagged, split.symm, said⟩

end Control

-- Every message the server can write and the parser accepts is read back, an
-- accepted input is the writing of exactly one message, and no accepted input
-- is a proper beginning of another.
theorem pgoutput_codec_exact (context : ParseContext) :
    (∀ (wire : WireMessage context) (message : Message), wire.message = some message →
      parseWithContext wire.encode context = .ok message) ∧
    (∀ (input : Bytes) (message : Message), parseWithContext input context = .ok message →
      ∃! wire : WireMessage context, wire.encode = input ∧ wire.message = some message) ∧
    (∀ (shorter longer : Bytes) (first second : Message), shorter <+: longer →
      parseWithContext shorter context = .ok first → parseWithContext longer context = .ok second →
      shorter = longer) := by
  refine ⟨?_, ?_, ?_⟩
  · intro wire message said
    exact (parse_iff context wire.encode message).mpr ⟨wire, rfl, said⟩
  · intro input message parsed
    obtain ⟨wire, encoded, said⟩ := (parse_iff context input message).mp parsed
    refine ⟨wire, ⟨encoded, said⟩, ?_⟩
    rintro other ⟨same, _⟩
    exact (encode_code context).prefix_eq other wire ((same.trans encoded.symm) ▸ List.prefix_rfl)
  · intro shorter longer first second begins parsedShorter parsedLonger
    obtain ⟨wire, rfl, _⟩ := (parse_iff context shorter first).mp parsedShorter
    obtain ⟨other, rfl, _⟩ := (parse_iff context longer second).mp parsedLonger
    rw [(encode_code context).prefix_eq wire other begins]

-- A streamed UPDATE whose first column is an unchanged value of the old row.
def changedRow : WireMessage .streaming :=
  .change (⟨7, by decide⟩ : Xid) (.update 16384 true
    ⟨[⟨.text "a", show (utf8 "a").length < 256 ^ 4 by decide⟩, ⟨.null, trivial⟩], by decide⟩
    ⟨[⟨.unchangedToast, trivial⟩, ⟨.text "b", show (utf8 "b").length < 256 ^ 4 by decide⟩], by decide⟩)

theorem pgoutput_codec_exact_update :
    parseWithContext [85, 0, 0, 0, 7, 0, 0, 64, 0, 79, 0, 2, 116, 0, 0, 0, 1, 97, 110, 78, 0, 2, 117, 116, 0, 0, 0, 1, 98]
      .streaming = .ok (.update (some 7) 16384 [some "a", none] [some "a", some "b"]) :=
  (pgoutput_codec_exact .streaming).1 changedRow _ rfl

end Shiba.Replication
