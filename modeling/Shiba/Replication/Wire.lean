import Shiba.Replication.Pgoutput

set_option autoImplicit false

namespace Shiba.Replication

open Layout

-- Protocol version 2 as the server writes it, the fields nobody reads included.
def writeU16 (value : UInt16) : Bytes := toBigEndian 2 value.toNat
def writeU32 (value : UInt32) : Bytes := toBigEndian 4 value.toNat
def writeU64 (value : UInt64) : Bytes := toBigEndian 8 value.toNat
def writeI64 (value : Int64) : Bytes := writeU64 value.toUInt64
def writeFlag (value : Bool) : Bytes := [if value then 1 else 0]

structure CString where
  text : String
  clean : (0 : UInt8) ∉ utf8 text

def CString.write (name : CString) : Bytes := utf8 name.text ++ [0]

abbrev Xid := { xid : UInt32 // xid ≠ 0 }

-- Only a streamed segment carries the transaction in front of each change.
def WireXid : ParseContext → Type
  | .nonStreaming => Unit
  | .streaming => Xid

def WireXid.write : (context : ParseContext) → WireXid context → Bytes
  | .nonStreaming, _ => []
  | .streaming, xid => writeU32 xid.val

def WireXid.sourceXid : (context : ParseContext) → WireXid context → Option UInt32
  | .nonStreaming, _ => none
  | .streaming, xid => some xid.val

structure WireColumn where
  flags : UInt8
  name : CString
  typeOid : UInt32
  typeModifier : UInt32

def WireColumn.write (column : WireColumn) : Bytes :=
  [column.flags] ++ column.name.write ++ writeU32 column.typeOid ++ writeU32 column.typeModifier

def ParsedTupleValue.Fits : ParsedTupleValue → Prop
  | .text value => (utf8 value).length < 256 ^ 4
  | _ => True

abbrev WireValue := { value : ParsedTupleValue // value.Fits }

def WireValue.write (value : WireValue) : Bytes :=
  match value.val with
  | .null => ['n'.toUInt8]
  | .text value => ['t'.toUInt8] ++ toBigEndian 4 (utf8 value).length ++ utf8 value
  | .unchangedToast => ['u'.toUInt8]

abbrev WireColumns := { columns : List WireColumn // columns.length < 256 ^ 2 }
abbrev WireTuple := { values : List WireValue // values.length < 256 ^ 2 }
abbrev WireRelids := { relids : List UInt32 // relids.length < 256 ^ 4 }
abbrev WireContent := { content : Bytes // content.length < 256 ^ 4 }

def WireColumns.write (columns : WireColumns) : Bytes :=
  toBigEndian 2 columns.val.length ++ columns.val.flatMap WireColumn.write

def WireTuple.write (tuple : WireTuple) : Bytes :=
  toBigEndian 2 tuple.val.length ++ tuple.val.flatMap WireValue.write

def WireContent.write (content : WireContent) : Bytes := toBigEndian 4 content.val.length ++ content.val

-- An old row comes as its replica identity or whole, with one tag or the other.
def writeOldTag (whole : Bool) : Bytes := [if whole then 'O'.toUInt8 else 'K'.toUInt8]

def writeOptions (cascade restartIdentity : Bool) : Bytes :=
  [(if cascade then 1 else 0) + (if restartIdentity then 2 else 0)]

inductive WireBody where
  | relation (relid : UInt32) (namespaceName name : CString) (replicaIdentity : UInt8) (columns : WireColumns)
  | type (typeid : UInt32) (namespaceName name : CString)
  | logical (transactional : Bool) (messageLsn : UInt64) (messagePrefix : CString) (content : WireContent)
  | insert (relid : UInt32) (row : WireTuple)
  | update (relid : UInt32) (whole : Bool) (old new : WireTuple)
  | delete (relid : UInt32) (whole : Bool) (old : WireTuple)
  | truncate (relids : WireRelids) (cascade restartIdentity : Bool)

def WireBody.tag : WireBody → UInt8
  | .relation .. => 'R'.toUInt8
  | .type .. => 'Y'.toUInt8
  | .logical .. => 'M'.toUInt8
  | .insert .. => 'I'.toUInt8
  | .update .. => 'U'.toUInt8
  | .delete .. => 'D'.toUInt8
  | .truncate .. => 'T'.toUInt8

def WireBody.fields : WireBody → Bytes
  | .relation relid namespaceName name replicaIdentity columns =>
      writeU32 relid ++ namespaceName.write ++ name.write ++ [replicaIdentity] ++ WireColumns.write columns
  | .type typeid namespaceName name => writeU32 typeid ++ namespaceName.write ++ name.write
  | .logical transactional messageLsn messagePrefix content =>
      writeFlag transactional ++ writeU64 messageLsn ++ messagePrefix.write ++ WireContent.write content
  | .insert relid row => writeU32 relid ++ ['N'.toUInt8] ++ WireTuple.write row
  | .update relid whole old new =>
      writeU32 relid ++ writeOldTag whole ++ WireTuple.write old ++ ['N'.toUInt8] ++ WireTuple.write new
  | .delete relid whole old => writeU32 relid ++ writeOldTag whole ++ WireTuple.write old
  | .truncate relids cascade restartIdentity =>
      toBigEndian 4 relids.val.length ++ writeOptions cascade restartIdentity ++ relids.val.flatMap writeU32

inductive WireMessage (context : ParseContext) where
  | begin (finalLsn commitTime : UInt64) (xid : UInt32)
  | commit (commitLsn endLsn commitTime : UInt64)
  | streamStart (xid : Xid) (firstSegment : Bool)
  | streamStop
  | streamCommit (xid : Xid) (commitLsn endLsn : UInt64) (commitTime : Int64)
  | streamAbort (xid subxid : Xid)
  | origin (originLsn : UInt64) (name : CString)
  | change (xid : WireXid context) (body : WireBody)

def WireMessage.tag {context : ParseContext} : WireMessage context → UInt8
  | .begin .. => 'B'.toUInt8
  | .commit .. => 'C'.toUInt8
  | .streamStart .. => 'S'.toUInt8
  | .streamStop => 'E'.toUInt8
  | .streamCommit .. => 'c'.toUInt8
  | .streamAbort .. => 'A'.toUInt8
  | .origin .. => 'O'.toUInt8
  | .change _ body => body.tag

def WireMessage.fields {context : ParseContext} : WireMessage context → Bytes
  | .begin finalLsn commitTime xid => writeU64 finalLsn ++ writeU64 commitTime ++ writeU32 xid
  | .commit commitLsn endLsn commitTime => [0] ++ writeU64 commitLsn ++ writeU64 endLsn ++ writeU64 commitTime
  | .streamStart xid firstSegment => writeU32 xid.val ++ writeFlag firstSegment
  | .streamStop => []
  | .streamCommit xid commitLsn endLsn commitTime =>
      writeU32 xid.val ++ [0] ++ writeU64 commitLsn ++ writeU64 endLsn ++ writeI64 commitTime
  | .streamAbort xid subxid => writeU32 xid.val ++ writeU32 subxid.val
  | .origin originLsn name => writeU64 originLsn ++ name.write
  | .change xid body => WireXid.write context xid ++ body.fields

def WireMessage.encode {context : ParseContext} (message : WireMessage context) : Bytes :=
  message.tag :: message.fields

-- What a row says: an unchanged column holds what the old row has in its place.
def rowOf : Tuple → List ParsedTupleValue → Option Tuple
  | _, [] => some []
  | old, value :: values => do
      let column ← match value with
        | .null => some none
        | .text value => some (some value)
        | .unchangedToast => old.head?
      let columns ← rowOf old.tail values
      return column :: columns

def WireTuple.row (old : Tuple) (tuple : WireTuple) : Option Tuple := rowOf old (tuple.val.map Subtype.val)

-- What the server says with a message; the fields left out are the ignored ones.
def WireBody.message (sourceXid : Option UInt32) : WireBody → Option Message
  | .relation relid _ _ _ columns => some (.relation sourceXid relid (columns.val.map fun column => column.name.text))
  | .type typeid namespaceName name => some (.type sourceXid typeid namespaceName.text name.text)
  | .logical transactional messageLsn messagePrefix content =>
      some (.logical sourceXid transactional messageLsn messagePrefix.text content.val)
  | .insert relid row => do
      let row ← WireTuple.row [] row
      return .insert sourceXid relid row
  | .update relid _ old new => do
      let old ← WireTuple.row [] old
      let new ← WireTuple.row old new
      return .update sourceXid relid old new
  | .delete relid _ old => do
      let old ← WireTuple.row [] old
      return .delete sourceXid relid old
  | .truncate relids cascade restartIdentity => some (.truncate sourceXid relids.val cascade restartIdentity)

def WireMessage.message {context : ParseContext} : WireMessage context → Option Message
  | .begin finalLsn _ xid => some (.begin finalLsn xid)
  | .commit commitLsn endLsn _ => some (.commit commitLsn endLsn)
  | .streamStart xid firstSegment => some (.streamStart xid.val firstSegment)
  | .streamStop => some .streamStop
  | .streamCommit xid commitLsn endLsn commitTime => some (.streamCommit xid.val 0 commitLsn endLsn commitTime)
  | .streamAbort xid subxid => some (.streamAbort xid.val subxid.val)
  | .origin originLsn name => some (.origin originLsn name.text)
  | .change xid body => body.message (WireXid.sourceXid context xid)

end Shiba.Replication
