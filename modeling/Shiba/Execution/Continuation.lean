import Shiba.DecimalText

set_option autoImplicit false

namespace Shiba.Execution

-- One durable value, or the argument of a statement.
inductive Datum where
  | null
  | smallint (value : Int)
  | integer (value : Int32)
  | bigint (value : Int)
  | boolean (value : Bool)
  | numeric (value : Numeric)
  | text (value : String)
deriving DecidableEq, Repr

inductive DatumType where
  | smallint
  | integer
  | bigint
  | boolean
  | numeric
deriving DecidableEq, Repr

-- A physical continuation column. `parameterCast` is the numeric transported as text.
structure StoredColumn where
  name : String
  type : DatumType
  notNull : Bool
  parameterCast : Bool := false
deriving DecidableEq, Repr

def StoredColumn.required (name : String) (type : DatumType) : StoredColumn := { name := name, type := type, notNull := true }

def StoredColumn.nullable (name : String) (type : DatumType) : StoredColumn := { name := name, type := type, notNull := false }

def StoredColumn.nullableAs (name : String) (type : DatumType) : StoredColumn :=
  { name := name, type := type, notNull := false, parameterCast := true }

def StoredColumn.admits (column : StoredColumn) (datum : Datum) : Bool :=
  match column.type, datum with
  | _, .null => !column.notNull
  | .smallint, .smallint _ | .integer, .integer _ | .bigint, .bigint _ | .boolean, .boolean _ | .numeric, .numeric _ => true
  | _, _ => false

def admitsAll : List StoredColumn → List Datum → Bool
  | [], [] => true
  | column :: columns, datum :: row => column.admits datum && admitsAll columns row
  | _, _ => false

-- parameter_sql: `$1`, or `$1::numeric`.
def StoredColumn.parameter (column : StoredColumn) (argument : Datum) : Except Fault Datum :=
  if column.parameterCast then
    match argument with
    | .text value => do
        let number ← numericIn value
        return .numeric number
    | other => .ok other
  else .ok argument

def castParameters : List StoredColumn → List Datum → Except Fault (List Datum)
  | column :: columns, argument :: arguments => do
      let datum ← column.parameter argument
      let row ← castParameters columns arguments
      return datum :: row
  | _, _ => .ok []

-- IS NOT DISTINCT FROM.
def sameDatum : Datum → Datum → Bool
  | .numeric left, .numeric right => left.equal right
  | left, right => decide (left = right)

def sameRow : List Datum → List Datum → Bool
  | [], [] => true
  | left :: lefts, right :: rights => sameDatum left right && sameRow lefts rights
  | _, _ => false

-- Numerics of different scales may be equal, integers only to themselves.
def Datum.Whole : Datum → Prop
  | .numeric value => ∃ unscaled, value = .finite unscaled 0
  | _ => True

theorem same_datum_self (datum : Datum) : sameDatum datum datum = true := by
  cases datum with
  | numeric value => exact numeric_equal_self value
  | _ => simp [sameDatum]

theorem same_row_self (row : List Datum) : sameRow row row = true := by
  induction row with
  | nil => rfl
  | cons datum rest ih => rw [sameRow, same_datum_self, ih]; rfl

theorem same_datum_whole (left right : Datum) (leftWhole : left.Whole) (rightWhole : right.Whole)
    (same : sameDatum left right = true) : left = right := by
  unfold sameDatum at same
  split at same
  · obtain ⟨one, rfl⟩ := leftWhole
    obtain ⟨other, rfl⟩ := rightWhole
    have equal := of_decide_eq_true same
    rw [pow_zero, mul_one, mul_one] at equal
    rw [equal]
  · exact of_decide_eq_true same

theorem same_row_whole (left right : List Datum) (leftWhole : ∀ datum ∈ left, datum.Whole)
    (rightWhole : ∀ datum ∈ right, datum.Whole) (same : sameRow left right = true) : left = right := by
  induction left generalizing right with
  | nil =>
      cases right with
      | nil => rfl
      | cons _ _ => cases same
  | cons datum rest ih =>
      cases right with
      | nil => cases same
      | cons other others =>
          obtain ⟨here, later⟩ := Bool.and_eq_true_iff.mp same
          rw [same_datum_whole datum other (leftWhole _ List.mem_cons_self) (rightWhole _ List.mem_cons_self) here,
            ih others (fun _ member => leftWhole _ (List.mem_cons_of_mem _ member))
              (fun _ member => rightWhole _ (List.mem_cons_of_mem _ member)) later]

-- The DELETE that compares the old row field by field. Every row of the
-- relation holds singleton = true, so none of them is written down here.
def deleteCas (fields : List StoredColumn) (table : List (List Datum)) (owner : String) :
    Option (List Datum) → Except Fault (List (List Datum))
  | none => .ok table
  | some old => do
      let expected ← castParameters fields old
      refuse (decide ((table.filter fun row => sameRow row expected).length ≠ 1)) s!"{owner} continuation compare-and-set failed"
      return table.filter fun row => !sameRow row expected

-- The INSERT, whose singleton is the relation's primary key.
def insertCas (fields : List StoredColumn) (table : List (List Datum)) : Option (List Datum) → Except Fault (List (List Datum))
  | none => .ok table
  | some next => do
      let row ← castParameters fields next
      if admitsAll fields row = false then .error (.raised "23502" "the row does not fit the continuation's columns")
      else if table ≠ [] then .error (.constraint "continuation_pkey")
      else .ok [row]

def disagrees (fields : List StoredColumn) (values : Option (List Datum)) : Bool :=
  values.any fun values => decide (values.length ≠ fields.length)

def replaceCas (columns : List StoredColumn) (table : List (List Datum)) (old next : Option (List Datum)) (owner : String) :
    Except Fault (List (List Datum)) :=
  match columns with
  | [] => .error (.failed "continuation schema omitted singleton")
  | _ :: fields => do
      refuse (disagrees fields old || disagrees fields next) s!"{owner} continuation field count disagrees with its ABI"
      let remaining ← deleteCas fields table owner old
      insertCas fields remaining next

-- PhaseCode::active.
def activePhaseCode (value : Int) : Except Fault Int := do
  refuse (decide (value ≤ 0)) "active operator phase code must be positive"
  return value

-- value.ok_or_else(message).
def omitted {α : Type} (value : Option α) (message : String) : Except Fault α :=
  match value with
  | some value => .ok value
  | none => .error (.failed message)

theorem omitted_ok {α : Type} {value : Option α} {message : String} {result : α} :
    omitted value message = .ok result ↔ value = some result := by
  cases value <;> simp [omitted]

-- A position as its three columns hold it.
structure StoredPosition where
  streamId : Int
  chunkSeq : Int
  rowOrdinal : Int
deriving DecidableEq, Repr

-- InputPosition::new.
def StoredPosition.new (streamId chunkSeq rowOrdinal : Int) : Except Fault StoredPosition := do
  refuse (decide (streamId ≤ 0) || decide (chunkSeq ≤ 0) || decide (rowOrdinal < 0))
    "input position contains an invalid identifier"
  return ⟨streamId, chunkSeq, rowOrdinal⟩

structure StoredPosition.Valid (position : StoredPosition) (streamId : Int) : Prop where
  stream : position.streamId = streamId
  positive : 0 < streamId
  chunk : 0 < position.chunkSeq
  row : 0 ≤ position.rowOrdinal

theorem new_position {streamId chunkSeq rowOrdinal : Int} {position : StoredPosition} :
    StoredPosition.new streamId chunkSeq rowOrdinal = .ok position ↔
      position.Valid streamId ∧ chunkSeq = position.chunkSeq ∧ rowOrdinal = position.rowOrdinal := by
  rw [StoredPosition.new, refuse_bind_ok]
  simp only [Bool.or_eq_false_iff, decide_eq_false_iff_not, not_le, not_lt]
  constructor
  · intro ⟨⟨⟨stream, chunk⟩, row⟩, same⟩
    obtain rfl := Except.ok.inj same
    exact ⟨⟨rfl, stream, chunk, row⟩, rfl, rfl⟩
  · intro ⟨valid, chunk, row⟩
    subst chunk row
    exact ⟨⟨⟨valid.positive, valid.chunk⟩, valid.row⟩, by rw [← valid.stream]; rfl⟩

-- An input cursor of two columns, both of them NULL or neither.
def decodePosition (message : String) (streamId : Int) (chunkSeq rowOrdinal : Option Int) :
    Except Fault (Option StoredPosition) :=
  match chunkSeq, rowOrdinal with
  | some chunk, some row => do
      let position ← StoredPosition.new streamId chunk row
      return some position
  | none, none => .ok none
  | _, _ => .error (.failed message)

section

variable (ordinal : Nat) (datum : Datum) (message : String)

theorem decode_position (streamId : Int) (chunkSeq rowOrdinal : Option Int) (input : Option StoredPosition) :
    decodePosition message streamId chunkSeq rowOrdinal = .ok input ↔
      (∀ position, input = some position → position.Valid streamId) ∧ chunkSeq = input.map StoredPosition.chunkSeq ∧
        rowOrdinal = input.map StoredPosition.rowOrdinal := by
  constructor
  · intro ok
    unfold decodePosition at ok
    split at ok
    · obtain ⟨position, made, same⟩ := bind_ok_iff.mp ok
      obtain rfl := Except.ok.inj same
      obtain ⟨valid, rfl, rfl⟩ := new_position.mp made
      refine ⟨?_, rfl, rfl⟩
      intro other listed
      obtain rfl := Option.some.inj listed
      exact valid
    · obtain rfl := Except.ok.inj ok
      exact ⟨fun _ wrong => (by cases wrong), rfl, rfl⟩
    · cases ok
  · intro ⟨valid, chunked, rowed⟩
    subst chunked rowed
    cases input with
    | none => rfl
    | some position =>
        exact bind_ok_iff.mpr ⟨position, new_position.mpr ⟨valid position rfl, rfl, rfl⟩, rfl⟩

-- What a drain goes on to: a row of the same chunk, nothing, or a frontier.
inductive StoredAfter where
  | resumes (next : StoredPosition)
  | finishes
  | frontier (frontier : StoredPosition)
deriving DecidableEq, Repr

def StoredAfter.kind : StoredAfter → Int
  | .resumes _ => 1
  | .finishes => 2
  | .frontier _ => 3

def StoredAfter.position : StoredAfter → Option StoredPosition
  | .resumes position | .frontier position => some position
  | .finishes => none

def StoredAfter.Valid (after : StoredAfter) (streamId : Int) : Prop :=
  ∀ position, after.position = some position → position.Valid streamId

-- Decoding of the TopN's and the Window's targets, which differ in their error only.
def decodeAfter (message : String) (streamId : Int) (kind chunkSeq rowOrdinal : Option Int) : Except Fault StoredAfter :=
  match kind, chunkSeq, rowOrdinal with
  | some 1, some chunk, some row => do
      let position ← StoredPosition.new streamId chunk row
      return .resumes position
  | some 2, none, none => .ok .finishes
  | some 3, some chunk, some row => do
      let position ← StoredPosition.new streamId chunk row
      return .frontier position
  | _, _, _ => .error (.failed message)

theorem decode_after {message : String} {streamId : Int} {kind chunkSeq rowOrdinal : Option Int} {after : StoredAfter} :
    decodeAfter message streamId kind chunkSeq rowOrdinal = .ok after ↔
      after.Valid streamId ∧ kind = some after.kind ∧ chunkSeq = after.position.map StoredPosition.chunkSeq ∧
        rowOrdinal = after.position.map StoredPosition.rowOrdinal := by
  constructor
  · intro decoded
    unfold decodeAfter at decoded
    split at decoded
    · obtain ⟨position, made, same⟩ := bind_ok_iff.mp decoded
      obtain rfl := Except.ok.inj same
      obtain ⟨valid, rfl, rfl⟩ := new_position.mp made
      refine ⟨?_, rfl, rfl, rfl⟩
      intro other listed
      obtain rfl := Option.some.inj listed
      exact valid
    · obtain rfl := Except.ok.inj decoded
      exact ⟨fun _ wrong => (by cases wrong), rfl, rfl, rfl⟩
    · obtain ⟨position, made, same⟩ := bind_ok_iff.mp decoded
      obtain rfl := Except.ok.inj same
      obtain ⟨valid, rfl, rfl⟩ := new_position.mp made
      refine ⟨?_, rfl, rfl, rfl⟩
      intro other listed
      obtain rfl := Option.some.inj listed
      exact valid
    · cases decoded
  · intro ⟨valid, coded, chunk, row⟩
    subst coded chunk row
    cases after with
    | finishes => rfl
    | resumes position | frontier position =>
        exact bind_ok_iff.mpr ⟨position, new_position.mpr ⟨valid position rfl, rfl, rfl⟩, rfl⟩

-- i32::try_from of a plan's ordinal, which is a u32.
def integerOf (ordinal : Nat) (message : String) : Except Fault Int32 := do
  refuse (decide (2 ^ 31 ≤ ordinal)) message
  return Int32.ofNat ordinal

-- u32::try_from of an integer column.
def ordinalOf (value : Int32) (message : String) : Except Fault Nat := do
  refuse (decide (value < 0)) message
  return value.toNatClampNeg

theorem integer_of (value : Int32) :
    integerOf ordinal message = .ok value ↔ ordinal < 2 ^ 31 ∧ value = Int32.ofNat ordinal := by
  rw [integerOf, refuse_bind_ok, decide_eq_false_iff_not, not_le]
  constructor
  · intro ⟨fits, same⟩
    exact ⟨fits, (Except.ok.inj same).symm⟩
  · intro ⟨fits, same⟩
    rw [same]
    exact ⟨fits, rfl⟩

theorem ordinal_of (value : Int32) (message : String) (ordinal : Nat) :
    ordinalOf value message = .ok ordinal ↔ ordinal < 2 ^ 31 ∧ value = Int32.ofNat ordinal := by
  rw [ordinalOf, refuse_bind_ok, decide_eq_false_iff_not]
  constructor
  · intro ⟨natural, same⟩
    obtain rfl := Except.ok.inj same
    have positive : 0 ≤ value := by
      rw [Int32.le_iff_toInt_le]
      rw [Int32.lt_iff_toInt_lt] at natural
      omega
    exact ⟨Int32.toNatClampNeg_lt value, (Int32.ofNat_toNatClampNeg value positive).symm⟩
  · intro ⟨fits, same⟩
    subst same
    refine ⟨?_, congrArg Except.ok (Int32.toNatClampNeg_ofNat_of_lt fits)⟩
    rw [Int32.lt_iff_toInt_lt, Int32.toInt_ofNat_of_lt fits]
    change ¬(ordinal : Int) < 0
    omega

-- row.get(ordinal) of each column type.
def Datum.ofSmallint (value : Option Int) : Datum := (value.map Datum.smallint).getD .null

def Datum.ofInteger (value : Option Int32) : Datum := (value.map Datum.integer).getD .null

def Datum.ofBigint (value : Option Int) : Datum := (value.map Datum.bigint).getD .null

def Datum.ofText (value : Option String) : Datum := (value.map Datum.text).getD .null

def mismatched {α : Type} : Except Fault α := .error (.failed "the column is of another type")

def getSmallint : Datum → Except Fault (Option Int)
  | .null => .ok none
  | .smallint value => .ok (some value)
  | _ => mismatched

def getInteger : Datum → Except Fault (Option Int32)
  | .null => .ok none
  | .integer value => .ok (some value)
  | _ => mismatched

def getBigint : Datum → Except Fault (Option Int)
  | .null => .ok none
  | .bigint value => .ok (some value)
  | _ => mismatched

def getBoolean : Datum → Except Fault (Option Bool)
  | .null => .ok none
  | .boolean value => .ok (some value)
  | _ => mismatched

-- A column that the query selects as ::text.
def getText : Datum → Except Fault (Option String)
  | .null => .ok none
  | .numeric value => .ok (some (String.ofList (numericOut value)))
  | _ => mismatched

def getRequired {α : Type} (value : Except Fault (Option α)) (message : String) : Except Fault α := do
  match ← value with
  | some value => return value
  | none => .error (.failed message)

theorem get_smallint (value : Option Int) : getSmallint datum = .ok value ↔ datum = .ofSmallint value := by
  cases datum <;> cases value <;> simp [getSmallint, Datum.ofSmallint, mismatched]

theorem get_integer (value : Option Int32) : getInteger datum = .ok value ↔ datum = .ofInteger value := by
  cases datum <;> cases value <;> simp [getInteger, Datum.ofInteger, mismatched]

theorem get_bigint (value : Option Int) : getBigint datum = .ok value ↔ datum = .ofBigint value := by
  cases datum <;> cases value <;> simp [getBigint, Datum.ofBigint, mismatched]

theorem get_required {α : Type} (value : Except Fault (Option α)) (message : String) (result : α) :
    getRequired value message = .ok result ↔ value = .ok (some result) := by
  unfold getRequired
  cases value with
  | error fault => simp [bind, Except.bind]
  | ok read => cases read <;> simp [pure, Except.pure]

theorem get_smallint_required (value : Int) :
    getRequired (getSmallint datum) message = .ok value ↔ datum = .smallint value := by
  rw [get_required, get_smallint]
  rfl

theorem get_bigint_required (value : Int) :
    getRequired (getBigint datum) message = .ok value ↔ datum = .bigint value := by
  rw [get_required, get_bigint]
  rfl

theorem get_boolean_required (value : Bool) :
    getRequired (getBoolean datum) message = .ok value ↔ datum = .boolean value := by
  rw [get_required]
  cases datum <;> simp [getBoolean, mismatched]

end

section

variable (name : String) (value : Option Int)

@[simp] theorem get_smallint_of : getSmallint (.ofSmallint value) = .ok value := (get_smallint _ _).mpr rfl

@[simp] theorem get_integer_of (value : Option Int32) : getInteger (.ofInteger value) = .ok value := (get_integer _ _).mpr rfl

@[simp] theorem get_bigint_of : getBigint (.ofBigint value) = .ok value := (get_bigint _ _).mpr rfl

@[simp] theorem get_required_smallint (value : Int) (message : String) :
    getRequired (getSmallint (.smallint value)) message = .ok value := (get_smallint_required _ _ _).mpr rfl

@[simp] theorem get_required_bigint (value : Int) (message : String) :
    getRequired (getBigint (.bigint value)) message = .ok value := (get_bigint_required _ _ _).mpr rfl

@[simp] theorem get_required_boolean (value : Bool) (message : String) :
    getRequired (getBoolean (.boolean value)) message = .ok value := (get_boolean_required _ _ _).mpr rfl

@[simp] theorem admits_of_bigint :
    (StoredColumn.nullable name .bigint).admits (.ofBigint value) = true := by
  cases value <;> rfl

@[simp] theorem admits_of_integer (value : Option Int32) :
    (StoredColumn.nullable name .integer).admits (.ofInteger value) = true := by
  cases value <;> rfl

@[simp] theorem admits_of_smallint :
    (StoredColumn.nullable name .smallint).admits (.ofSmallint value) = true := by
  cases value <;> rfl

@[simp] theorem whole_of_bigint : (Datum.ofBigint value).Whole := by
  cases value <;> trivial

@[simp] theorem whole_of_integer (value : Option Int32) : (Datum.ofInteger value).Whole := by
  cases value <;> trivial

@[simp] theorem whole_of_smallint : (Datum.ofSmallint value).Whole := by
  cases value <;> trivial

end

-- An operator's own half: its columns, and the hand-written encoder and decoder.
structure ContinuationCodec (Fields Continuation : Type) where
  owner : String
  columns : List StoredColumn
  encode : Continuation → Except Fault Fields
  decode : Fields → Except Fault Continuation
  arguments : Fields → List Datum
  read : List Datum → Except Fault Fields

namespace ContinuationCodec

variable {Fields Continuation : Type} (codec : ContinuationCodec Fields Continuation)

-- The columns behind singleton.
def fields : List StoredColumn := codec.columns.drop 1

def load (row : List Datum) : Except Fault Continuation := do
  let fields ← codec.read row
  codec.decode fields

def encoded (continuation : Continuation) : Except Fault (List Datum) := do
  let fields ← codec.encode continuation
  return codec.arguments fields

def encodedOption : Option Continuation → Except Fault (Option (List Datum))
  | none => .ok none
  | some continuation => do
      let arguments ← codec.encoded continuation
      return some arguments

def replace (table : List (List Datum)) (old next : Option Continuation) : Except Fault (List (List Datum)) := do
  let oldArguments ← codec.encodedOption old
  let nextArguments ← codec.encodedOption next
  replaceCas codec.columns table oldArguments nextArguments codec.owner

-- What an operator's encoder and decoder owe each other. `sound` are the
-- continuations that decoding makes, `texts` the fields in canonical text.
structure Lawful (sound : Continuation → Prop) (texts : Fields → Prop) : Prop where
  keyed : codec.columns ≠ []
  decoded : ∀ fields continuation, texts fields →
    (codec.decode fields = .ok continuation ↔ sound continuation ∧ codec.encode continuation = .ok fields)
  encodes : ∀ continuation, sound continuation → ∃ fields, codec.encode continuation = .ok fields ∧ texts fields
  canonical : ∀ row fields, admitsAll codec.fields row = true → codec.read row = .ok fields → texts fields
  counted : ∀ fields, (codec.arguments fields).length = codec.fields.length
  written : ∀ continuation fields, sound continuation → codec.encode continuation = .ok fields →
    ∃ row, castParameters codec.fields (codec.arguments fields) = .ok row ∧ admitsAll codec.fields row = true ∧
      (∀ datum ∈ row, datum.Whole) ∧
      ∀ other, admitsAll codec.fields other = true → (codec.read other = .ok fields ↔ other = row)

-- The round trips, and what they make of the compare-and-set.
structure RoundTrips (texts : Fields → Prop) (produced fits : Continuation → Prop) : Prop where
  encodes : ∀ continuation, produced continuation → ((∃ fields, codec.encode continuation = .ok fields) ↔ fits continuation)
  decodes_encoded : ∀ continuation fields, produced continuation → codec.encode continuation = .ok fields →
    codec.decode fields = .ok continuation
  encodes_decoded : ∀ fields continuation, texts fields → codec.decode fields = .ok continuation →
    codec.encode continuation = .ok fields
  cleared : ∀ row held, admitsAll codec.fields row = true → codec.load row = .ok held →
    codec.replace [row] (some held) none = .ok []
  replaced : ∀ row held next, admitsAll codec.fields row = true → codec.load row = .ok held → produced next → fits next →
    ∃ after, codec.replace [row] (some held) (some next) = .ok [after] ∧ admitsAll codec.fields after = true ∧
      codec.load after = .ok next
  refused : ∀ row held earlier old next arguments, admitsAll codec.fields row = true → codec.load row = .ok held →
    admitsAll codec.fields earlier = true → codec.load earlier = .ok old → old ≠ held →
    codec.encodedOption next = .ok arguments →
    codec.replace [row] (some old) next = .error (.failed s!"{codec.owner} continuation compare-and-set failed")

section Laws

variable {codec} {sound : Continuation → Prop} {texts : Fields → Prop} (lawful : codec.Lawful sound texts)

include lawful

-- A row that loads is the very row that encoding writes.
theorem load_written {row : List Datum} {held : Continuation} (admitted : admitsAll codec.fields row = true)
    (loaded : codec.load row = .ok held) :
    sound held ∧ ∃ fields, codec.encode held = .ok fields ∧ castParameters codec.fields (codec.arguments fields) = .ok row ∧
      ∀ datum ∈ row, datum.Whole := by
  obtain ⟨fields, read, decoded⟩ := bind_ok_iff.mp loaded
  have texts := lawful.canonical row fields admitted read
  obtain ⟨good, encoded⟩ := (lawful.decoded fields held texts).mp decoded
  obtain ⟨other, cast, _, whole, unique⟩ := lawful.written held fields good encoded
  obtain rfl := (unique row admitted).mp read
  exact ⟨good, fields, encoded, cast, whole⟩

theorem written_loads (continuation : Continuation) (good : sound continuation) :
    ∃ fields row, codec.encode continuation = .ok fields ∧ castParameters codec.fields (codec.arguments fields) = .ok row ∧
      admitsAll codec.fields row = true ∧ codec.load row = .ok continuation := by
  obtain ⟨fields, encoded, canonical⟩ := lawful.encodes continuation good
  obtain ⟨row, cast, admitted, _, unique⟩ := lawful.written continuation fields good encoded
  refine ⟨fields, row, encoded, cast, admitted, ?_⟩
  exact bind_ok_iff.mpr ⟨fields, (unique row admitted).mpr rfl, (lawful.decoded fields continuation canonical).mpr ⟨good, encoded⟩⟩

theorem agrees (fields : Fields) : disagrees codec.fields (some (codec.arguments fields)) = false :=
  decide_eq_false (not_not.mpr (lawful.counted fields))

omit lawful in
theorem encoded_some {continuation : Continuation} {fields : Fields} (encoded : codec.encode continuation = .ok fields) :
    codec.encodedOption (some continuation) = .ok (some (codec.arguments fields)) := by
  rw [encodedOption, ContinuationCodec.encoded, encoded, ok_bind]
  rfl

-- Different continuations are written as rows that the comparison tells apart.
theorem written_apart (first second : List Datum) (one other : Continuation) (admittedFirst : admitsAll codec.fields first = true)
    (admittedSecond : admitsAll codec.fields second = true) (loadedFirst : codec.load first = .ok one)
    (loadedSecond : codec.load second = .ok other) (same : sameRow first second = true) : one = other := by
  obtain ⟨_, _, _, _, wholeFirst⟩ := load_written lawful admittedFirst loadedFirst
  obtain ⟨_, _, _, _, wholeSecond⟩ := load_written lawful admittedSecond loadedSecond
  obtain rfl := same_row_whole first second wholeFirst wholeSecond same
  exact Except.ok.inj (loadedFirst.symm.trans loadedSecond)

theorem replace_cas_agreed (table : List (List Datum)) (old next : Option (List Datum))
    (oldAgrees : disagrees codec.fields old = false) (nextAgrees : disagrees codec.fields next = false) :
    replaceCas codec.columns table old next codec.owner =
      (deleteCas codec.fields table codec.owner old >>= fun remaining => insertCas codec.fields remaining next) := by
  unfold fields at oldAgrees nextAgrees ⊢
  cases listed : codec.columns with
  | nil => exact absurd listed lawful.keyed
  | cons singleton rest =>
      rw [listed, List.drop_one, List.tail_cons] at oldAgrees nextAgrees
      simp only [replaceCas, oldAgrees, nextAgrees, Bool.or_self, List.drop_one, List.tail_cons]
      rfl

-- The row that `held` is written as is the one row that the DELETE finds.
omit lawful in
theorem delete_found (row : List Datum) (fields : Fields)
    (cast : castParameters codec.fields (codec.arguments fields) = .ok row) :
    deleteCas codec.fields [row] codec.owner (some (codec.arguments fields)) = .ok [] := by
  have found : [row].filter (fun other => sameRow other row) = [row] := by simp [same_row_self]
  have gone : [row].filter (fun other => !sameRow other row) = [] := by simp [same_row_self]
  rw [deleteCas, cast, ok_bind, found, gone]
  rfl

theorem replaces (row : List Datum) (held : Continuation) (admitted : admitsAll codec.fields row = true)
    (loaded : codec.load row = .ok held) : codec.replace [row] (some held) none = .ok [] := by
  obtain ⟨_, fields, encoded, cast, _⟩ := load_written lawful admitted loaded
  rw [replace, encoded_some encoded, ok_bind, encodedOption, ok_bind,
    replace_cas_agreed lawful _ _ _ (agrees lawful fields) rfl, delete_found row fields cast, ok_bind]
  rfl

theorem replaces_next (row : List Datum) (held next : Continuation) (admitted : admitsAll codec.fields row = true)
    (loaded : codec.load row = .ok held) (good : sound next) :
    ∃ after, codec.replace [row] (some held) (some next) = .ok [after] ∧ admitsAll codec.fields after = true ∧
      codec.load after = .ok next := by
  obtain ⟨_, fields, encoded, cast, _⟩ := load_written lawful admitted loaded
  obtain ⟨nextFields, after, nextEncoded, nextCast, nextAdmitted, nextLoaded⟩ := written_loads lawful next good
  refine ⟨after, ?_, nextAdmitted, nextLoaded⟩
  rw [replace, encoded_some encoded, ok_bind, encoded_some nextEncoded, ok_bind,
    replace_cas_agreed lawful _ _ _ (agrees lawful fields) (agrees lawful nextFields), delete_found row fields cast, ok_bind,
    insertCas, nextCast, ok_bind, nextAdmitted]
  rfl

theorem refuses {row earlier : List Datum} {held old : Continuation} {next : Option Continuation}
    {arguments : Option (List Datum)} (admitted : admitsAll codec.fields row = true) (loaded : codec.load row = .ok held)
    (earlierAdmitted : admitsAll codec.fields earlier = true) (earlierLoaded : codec.load earlier = .ok old)
    (different : old ≠ held) (encodes : codec.encodedOption next = .ok arguments) :
    codec.replace [row] (some old) next = .error (.failed s!"{codec.owner} continuation compare-and-set failed") := by
  obtain ⟨_, fields, encoded, cast, _⟩ := load_written lawful earlierAdmitted earlierLoaded
  have counted : disagrees codec.fields arguments = false := by
    cases next with
    | none =>
        obtain rfl := Except.ok.inj encodes
        rfl
    | some next =>
        obtain ⟨values, written, same⟩ := bind_ok_iff.mp encodes
        obtain ⟨nextFields, _, made⟩ := bind_ok_iff.mp written
        obtain rfl := Except.ok.inj same
        obtain rfl := Except.ok.inj made
        exact agrees lawful nextFields
  have apart : sameRow row earlier = false := by
    by_contra same
    rw [Bool.not_eq_false] at same
    exact different (written_apart lawful row earlier held old admitted earlierAdmitted loaded earlierLoaded same).symm
  have missed : [row].filter (fun other => sameRow other earlier) = [] := by simp [apart]
  rw [replace, encoded_some encoded, ok_bind, encodes, ok_bind,
    replace_cas_agreed lawful _ _ _ (agrees lawful fields) counted, deleteCas, cast, ok_bind, missed]
  rfl

theorem round_trips (produced fits : Continuation → Prop)
    (reached : ∀ continuation, produced continuation → fits continuation → sound continuation)
    (small : ∀ continuation fields, codec.encode continuation = .ok fields → fits continuation) :
    codec.RoundTrips texts produced fits := by
  have decodes (continuation : Continuation) (fields : Fields) (made : produced continuation)
      (encoded : codec.encode continuation = .ok fields) : codec.decode fields = .ok continuation := by
    have good := reached continuation made (small continuation fields encoded)
    obtain ⟨other, same, canonical⟩ := lawful.encodes continuation good
    obtain rfl := Except.ok.inj (encoded.symm.trans same)
    exact (lawful.decoded fields continuation canonical).mpr ⟨good, encoded⟩
  constructor
  · intro continuation made
    constructor
    · intro ⟨fields, encoded⟩
      exact small continuation fields encoded
    · intro fit
      obtain ⟨fields, encoded, _⟩ := lawful.encodes continuation (reached continuation made fit)
      exact ⟨fields, encoded⟩
  · exact decodes
  · intro fields continuation canonical decoded
    exact ((lawful.decoded fields continuation canonical).mp decoded).2
  · exact replaces lawful
  · intro row held next admitted loaded made fit
    exact replaces_next lawful row held next admitted loaded (reached next made fit)
  · intro row held earlier old next arguments admitted loaded earlierAdmitted earlierLoaded different encodes
    exact refuses lawful admitted loaded earlierAdmitted earlierLoaded different encodes

end Laws

end ContinuationCodec

end Shiba.Execution
