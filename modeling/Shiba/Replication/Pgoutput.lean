import Shiba.Library.Layout

set_option autoImplicit false

namespace Shiba.Replication

open Layout

abbrev Bytes := List UInt8
abbrev Tuple := List (Option String)

inductive Message where
  | begin (finalLsn : UInt64) (xid : UInt32)
  | commit (commitLsn endLsn : UInt64)
  | streamStart (xid : UInt32) (firstSegment : Bool)
  | streamStop
  | streamCommit (xid : UInt32) (flags : UInt8) (commitLsn endLsn : UInt64) (commitTime : Int64)
  | streamAbort (xid subxid : UInt32)
  | relation (sourceXid : Option UInt32) (relid : UInt32) (columns : List String)
  | type (sourceXid : Option UInt32) (typeid : UInt32) (namespaceName name : String)
  | origin (originLsn : UInt64) (name : String)
  | logical (sourceXid : Option UInt32) (transactional : Bool) (messageLsn : UInt64) (messagePrefix : String)
      (content : Bytes)
  | insert (sourceXid : Option UInt32) (relid : UInt32) (row : Tuple)
  | update (sourceXid : Option UInt32) (relid : UInt32) (old new : Tuple)
  | delete (sourceXid : Option UInt32) (relid : UInt32) (old : Tuple)
  | truncate (sourceXid : Option UInt32) (relids : List UInt32) (cascade restartIdentity : Bool)
deriving DecidableEq, Repr

inductive ParsedTupleValue where
  | null
  | text (value : String)
  | unchangedToast
deriving DecidableEq, Repr

inductive ParseContext where
  | nonStreaming
  | streaming
deriving DecidableEq, Repr

abbrev Parsed := Except String

-- Offsets are `usize`. A slice holds fewer than 2^63 bytes and every length read
-- from it is below 2^34, so the checked sums never overflow and are plain ones here.
def require (good : Bool) (message : String) : Parsed Unit := if good then .ok () else .error message

def okOr {α : Type} (value : Option α) (message : String) : Parsed α :=
  match value with
  | some value => .ok value
  | none => .error message

def utf8 (text : String) : Bytes := text.toByteArray.data.toList

-- `std::str::from_utf8`.
def fromUtf8 (bytes : Bytes) : Option String := String.fromUTF8? ⟨bytes.toArray⟩

def requireExactLen (input : Bytes) (expected : Nat) (error : String) : Parsed Unit :=
  require (input.length == expected) error

def requireZeroFlag (input : Bytes) (offset : Nat) (error : String) : Parsed Unit := do
  let flag ← okOr input[offset]? "truncated pgoutput message"
  require (flag == 0) error

def readUint (width : Nat) (input : Bytes) (offset : Nat) : Parsed Nat := do
  let bytes ← okOr (slice input offset (offset + width)) "truncated pgoutput message"
  return ofBigEndian bytes

def readU16 (input : Bytes) (offset : Nat) : Parsed UInt16 := UInt16.ofNat <$> readUint 2 input offset
def readU32 (input : Bytes) (offset : Nat) : Parsed UInt32 := UInt32.ofNat <$> readUint 4 input offset
def readU64 (input : Bytes) (offset : Nat) : Parsed UInt64 := UInt64.ofNat <$> readUint 8 input offset
def readI64 (input : Bytes) (offset : Nat) : Parsed Int64 := UInt64.toInt64 <$> readU64 input offset

def readCstr (input : Bytes) (offset : Nat) : Parsed (String × Nat) := do
  require (offset ≤ input.length) "truncated pgoutput message"
  let rest := input.drop offset
  let stop ← okOr (rest.findIdx? (· == 0)) "unterminated pgoutput string"
  let value ← okOr (fromUtf8 (rest.take stop)) "pgoutput string is not UTF-8"
  return (value, offset + stop + 1)

def parseTupleValue (input : Bytes) (cursor : Nat) : Parsed (ParsedTupleValue × Nat) := do
  let tag ← okOr input[cursor]? "truncated tuple"
  if tag = 'n'.toUInt8 then
    return (.null, cursor + 1)
  else if tag = 't'.toUInt8 then
    let length ← readU32 input (cursor + 1)
    let start := cursor + 5
    let stop := start + length.toNat
    let bytes ← okOr (slice input start stop) "truncated tuple"
    let value ← okOr (fromUtf8 bytes) "tuple value is not UTF-8"
    return (.text value, stop)
  else if tag = 'u'.toUInt8 then
    return (.unchangedToast, cursor + 1)
  else
    throw "invalid tuple column tag"

-- The `for _ in 0..count` loops: an item after the other, each where the last one ended.
def repeatParse {α : Type} (item : Nat → Parsed (α × Nat)) : Nat → Nat → Parsed (List α × Nat)
  | 0, offset => return ([], offset)
  | count + 1, offset => do
      let (value, next) ← item offset
      let (values, stop) ← repeatParse item count next
      return (value :: values, stop)

def parseTuple (input : Bytes) (offset : Nat) : Parsed (List ParsedTupleValue × Nat) := do
  require (input[offset]? == some 'N'.toUInt8 || input[offset]? == some 'K'.toUInt8 ||
    input[offset]? == some 'O'.toUInt8) "invalid tuple tag"
  let count ← readU16 input (offset + 1)
  repeatParse (parseTupleValue input) count.toNat (offset + 3)

def completeTuple (values : List ParsedTupleValue) : Parsed Tuple :=
  values.mapM fun value =>
    match value with
    | .null => .ok none
    | .text value => .ok (some value)
    | .unchangedToast => .error "unchanged TOAST value requires an UPDATE old tuple"

def resolveUnchangedToast (old : Tuple) (new : List ParsedTupleValue) : Parsed Tuple :=
  new.zipIdx.mapM fun (value, index) =>
    match value with
    | .null => .ok none
    | .text value => .ok (some value)
    | .unchangedToast => okOr old[index]? "unchanged TOAST column is absent from the UPDATE old tuple"

def firstSegmentFlag : Option UInt8 → Parsed Bool
  | some 0 => .ok false
  | some 1 => .ok true
  | _ => .error "invalid stream start first-segment flag"

def parseStreamStart (input : Bytes) : Parsed Message := do
  requireExactLen input 6 "invalid stream start message length"
  let xid ← readU32 input 1
  require (xid != 0) "invalid transaction ID in stream start"
  let firstSegment ← firstSegmentFlag input[5]?
  return .streamStart xid firstSegment

def parseStreamCommit (input : Bytes) : Parsed Message := do
  requireExactLen input 30 "invalid stream commit message length"
  requireZeroFlag input 5 "invalid stream commit flags"
  let xid ← readU32 input 1
  require (xid != 0) "invalid transaction ID in stream commit"
  let flags ← okOr input[5]? "invalid stream commit flags"
  return .streamCommit xid flags (← readU64 input 6) (← readU64 input 14) (← readI64 input 22)

def parseStreamAbort (input : Bytes) : Parsed Message := do
  requireExactLen input 9 "invalid stream abort message length"
  let xid ← readU32 input 1
  let subxid ← readU32 input 5
  require (xid != 0 && subxid != 0) "invalid transaction ID in stream abort"
  return .streamAbort xid subxid

-- The column flags in front of a name, and its type OID and modifier behind it, are skipped.
def parseRelationColumn (input : Bytes) (offset : Nat) : Parsed (String × Nat) := do
  let (name, nameEnd) ← readCstr input (offset + 1)
  let next := nameEnd + 8
  require (next ≤ input.length) "truncated relation message"
  return (name, next)

def parseRelation (input : Bytes) (offset : Nat) (sourceXid : Option UInt32) : Parsed Message := do
  let relid ← readU32 input offset
  let (_, namespaceEnd) ← readCstr input (offset + 4)
  let (_, relationEnd) ← readCstr input namespaceEnd
  let columnCount ← readU16 input (relationEnd + 1)
  let (columns, offset) ← repeatParse (parseRelationColumn input) columnCount.toNat (relationEnd + 3)
  requireExactLen input offset "invalid relation message length"
  return .relation sourceXid relid columns

def parseType (input : Bytes) (offset : Nat) (sourceXid : Option UInt32) : Parsed Message := do
  let typeid ← readU32 input offset
  let (namespaceName, namespaceEnd) ← readCstr input (offset + 4)
  let (name, nameEnd) ← readCstr input namespaceEnd
  requireExactLen input nameEnd "invalid type message length"
  return .type sourceXid typeid namespaceName name

def parseOrigin (input : Bytes) : Parsed Message := do
  let originLsn ← readU64 input 1
  let (name, nameEnd) ← readCstr input 9
  requireExactLen input nameEnd "invalid origin message length"
  return .origin originLsn name

def logicalFlag : Option UInt8 → Parsed Bool
  | some 0 => .ok false
  | some 1 => .ok true
  | some _ => .error "invalid logical message flags"
  | none => .error "truncated pgoutput message"

def parseLogicalMessage (input : Bytes) (offset : Nat) (sourceXid : Option UInt32) : Parsed Message := do
  let transactional ← logicalFlag input[offset]?
  let messageLsn ← readU64 input (offset + 1)
  let (messagePrefix, prefixEnd) ← readCstr input (offset + 9)
  let contentLen ← readU32 input prefixEnd
  let contentStart := prefixEnd + 4
  let contentEnd := contentStart + contentLen.toNat
  let content ← okOr (slice input contentStart contentEnd) "truncated logical message"
  requireExactLen input contentEnd "invalid logical message length"
  return .logical sourceXid transactional messageLsn messagePrefix content

def parseInsert (input : Bytes) (offset : Nat) (sourceXid : Option UInt32) : Parsed Message := do
  let relid ← readU32 input offset
  let tupleOffset := offset + 4
  require (input[tupleOffset]? == some 'N'.toUInt8) "invalid insert tuple tag"
  let (row, tupleEnd) ← parseTuple input tupleOffset
  requireExactLen input tupleEnd "invalid insert message length"
  return .insert sourceXid relid (← completeTuple row)

def parseUpdate (input : Bytes) (offset : Nat) (sourceXid : Option UInt32) : Parsed Message := do
  let relid ← readU32 input offset
  let tupleOffset := offset + 4
  let tag ← okOr input[tupleOffset]? "truncated update message"
  require (tag != 'N'.toUInt8) "UPDATE lacks an old tuple; source must use REPLICA IDENTITY FULL"
  require (tag == 'K'.toUInt8 || tag == 'O'.toUInt8) "invalid update tuple tag"
  let (old, offset) ← parseTuple input tupleOffset
  require (input[offset]? == some 'N'.toUInt8) "UPDATE lacks a new tuple"
  let old ← completeTuple old
  let (new, tupleEnd) ← parseTuple input offset
  requireExactLen input tupleEnd "invalid update message length"
  return .update sourceXid relid old (← resolveUnchangedToast old new)

def parseDelete (input : Bytes) (offset : Nat) (sourceXid : Option UInt32) : Parsed Message := do
  let relid ← readU32 input offset
  let tupleOffset := offset + 4
  require (input[tupleOffset]? == some 'K'.toUInt8 || input[tupleOffset]? == some 'O'.toUInt8)
    "invalid delete tuple tag"
  let (old, tupleEnd) ← parseTuple input tupleOffset
  requireExactLen input tupleEnd "invalid delete message length"
  return .delete sourceXid relid (← completeTuple old)

def parseTruncate (input : Bytes) (offset : Nat) (sourceXid : Option UInt32) : Parsed Message := do
  let relationCount ← readU32 input offset
  let options ← okOr input[offset + 4]? "truncated truncate message"
  require (options &&& ~~~0b11 == 0) "invalid truncate options"
  let relidsStart := offset + 5
  let expectedLen := relidsStart + relationCount.toNat * 4
  requireExactLen input expectedLen "invalid truncate message length"
  let relids ← (List.range relationCount.toNat).mapM fun index => readU32 input (relidsStart + index * 4)
  return .truncate sourceXid relids (options &&& 0b01 != 0) (options &&& 0b10 != 0)

def parseTransactional (input : Bytes) (context : ParseContext)
    (parser : Bytes → Nat → Option UInt32 → Parsed Message) : Parsed Message :=
  match context with
  | .nonStreaming => parser input 1 none
  | .streaming => do
      let xid ← readU32 input 1
      require (xid != 0) "invalid transaction ID in streamed replication transaction"
      parser input 5 (some xid)

def parseBegin (input : Bytes) : Parsed Message := do
  requireExactLen input 21 "invalid begin message length"
  return .begin (← readU64 input 1) (← readU32 input 17)

def parseCommit (input : Bytes) : Parsed Message := do
  requireExactLen input 26 "invalid commit message length"
  requireZeroFlag input 1 "invalid commit flags"
  return .commit (← readU64 input 2) (← readU64 input 10)

def parseStreamStop (input : Bytes) : Parsed Message := do
  requireExactLen input 1 "invalid stream stop message length"
  return .streamStop

def parseWithContext (input : Bytes) (context : ParseContext) : Parsed Message := do
  let tag ← okOr input.head? "empty pgoutput message"
  if tag = 'B'.toUInt8 then parseBegin input
  else if tag = 'C'.toUInt8 then parseCommit input
  else if tag = 'S'.toUInt8 then parseStreamStart input
  else if tag = 'E'.toUInt8 then parseStreamStop input
  else if tag = 'c'.toUInt8 then parseStreamCommit input
  else if tag = 'A'.toUInt8 then parseStreamAbort input
  else if tag = 'R'.toUInt8 then parseTransactional input context parseRelation
  else if tag = 'Y'.toUInt8 then parseTransactional input context parseType
  else if tag = 'O'.toUInt8 then parseOrigin input
  else if tag = 'M'.toUInt8 then parseTransactional input context parseLogicalMessage
  else if tag = 'I'.toUInt8 then parseTransactional input context parseInsert
  else if tag = 'U'.toUInt8 then parseTransactional input context parseUpdate
  else if tag = 'D'.toUInt8 then parseTransactional input context parseDelete
  else if tag = 'T'.toUInt8 then parseTransactional input context parseTruncate
  else throw "unsupported or truncated pgoutput message"

end Shiba.Replication
