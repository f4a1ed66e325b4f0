import Shiba.Execution.Continuation
import Shiba.TopN.Machine

set_option autoImplicit false

namespace Shiba.TopN

open Shiba.Execution
open Shiba.Sink (InputPosition)

inductive TopNPhaseKind where
  | admitted
  | select
  | diff
  | cleanup
  | frontier
deriving DecidableEq, Repr

def TopNPhaseKind.code : TopNPhaseKind → Int
  | .admitted => 1
  | .select => 2
  | .diff => 3
  | .cleanup => 4
  | .frontier => 5

def TopNPhaseKind.fromCode (code : Int) : Except Fault TopNPhaseKind :=
  if code = 1 then .ok .admitted
  else if code = 2 then .ok .select
  else if code = 3 then .ok .diff
  else if code = 4 then .ok .cleanup
  else if code = 5 then .ok .frontier
  else .error (.failed "unknown TopN phase code")

-- A continuation over the identifiers that bigint columns hold, of either sign.
inductive StoredPhase where
  | admitted
  | select (generationId : Int) (progress : SelectionProgress) (afterDrain : StoredAfter)
  | diff (generationId : Int) (leg : DiffLeg) (cursor : TopNDiffCursor) (afterDrain : StoredAfter)
  | cleanup (generationId : Int) (cursor : TopNCursor) (afterDrain : StoredAfter)
  | frontier
deriving DecidableEq, Repr

structure StoredContinuation where
  inputStreamId : Int
  input : Option StoredPosition
  phase : StoredPhase
deriving DecidableEq, Repr

structure TopNFields where
  phase : Int
  inputStreamId : Int
  inputChunkSeq : Option Int
  inputRowOrdinal : Option Int
  generationId : Option Int := none
  cursorRowId : Option Int := none
  cursorRepeat : Bool := false
  offsetRemaining : Option String := none
  limitRemaining : Option String := none
  tieBoundaryRowId : Option Int := none
  diffLeg : Option Int := none
  afterKind : Option Int := none
  afterChunkSeq : Option Int := none
  afterRowOrdinal : Option Int := none
deriving DecidableEq, Repr

def continuationColumns : List StoredColumn :=
  [.required "singleton" .boolean, .required "phase" .smallint, .required "input_stream_id" .bigint,
   .nullable "input_chunk_seq" .bigint, .nullable "input_row_ordinal" .bigint, .nullable "generation_id" .bigint,
   .nullable "cursor_row_id" .bigint, .required "cursor_repeat" .boolean, .nullableAs "offset_remaining" .numeric,
   .nullableAs "limit_remaining" .numeric, .nullable "tie_boundary_row_id" .bigint, .nullable "diff_leg" .smallint,
   .nullable "after_kind" .smallint, .nullable "after_chunk_seq" .bigint, .nullable "after_row_ordinal" .bigint]

def topnFieldArguments (fields : TopNFields) : List Datum :=
  [.smallint fields.phase, .bigint fields.inputStreamId, .ofBigint fields.inputChunkSeq, .ofBigint fields.inputRowOrdinal,
   .ofBigint fields.generationId, .ofBigint fields.cursorRowId, .boolean fields.cursorRepeat, .ofText fields.offsetRemaining,
   .ofText fields.limitRemaining, .ofBigint fields.tieBoundaryRowId, .ofSmallint fields.diffLeg, .ofSmallint fields.afterKind,
   .ofBigint fields.afterChunkSeq, .ofBigint fields.afterRowOrdinal]

-- load_topn_continuation's row; offset_remaining and limit_remaining are read as text.
def readTopNFields : List Datum → Except Fault TopNFields
  | [phase, inputStreamId, inputChunkSeq, inputRowOrdinal, generationId, cursorRowId, cursorRepeat, offsetRemaining,
     limitRemaining, tieBoundaryRowId, diffLeg, afterKind, afterChunkSeq, afterRowOrdinal] => do
      let phase ← getRequired (getSmallint phase) "TopN phase returned NULL"
      let inputStreamId ← getRequired (getBigint inputStreamId) "TopN input stream returned NULL"
      let inputChunkSeq ← getBigint inputChunkSeq
      let inputRowOrdinal ← getBigint inputRowOrdinal
      let generationId ← getBigint generationId
      let cursorRowId ← getBigint cursorRowId
      let cursorRepeat ← getRequired (getBoolean cursorRepeat) "TopN cursor repeat returned NULL"
      let offsetRemaining ← getText offsetRemaining
      let limitRemaining ← getText limitRemaining
      let tieBoundaryRowId ← getBigint tieBoundaryRowId
      let diffLeg ← getSmallint diffLeg
      let afterKind ← getSmallint afterKind
      let afterChunkSeq ← getBigint afterChunkSeq
      let afterRowOrdinal ← getBigint afterRowOrdinal
      return ⟨phase, inputStreamId, inputChunkSeq, inputRowOrdinal, generationId, cursorRowId, cursorRepeat, offsetRemaining,
        limitRemaining, tieBoundaryRowId, diffLeg, afterKind, afterChunkSeq, afterRowOrdinal⟩
  | _ => mismatched

def DiffLeg.code : DiffLeg → Int
  | .remove => 1
  | .add => 2

def DiffLeg.fromCode (message : String) : Option Int → Except Fault DiffLeg
  | some 1 => .ok .remove
  | some 2 => .ok .add
  | _ => .error (.failed message)

def parseU64Numeric (value : Option String) (label : String) : Except Fault Nat :=
  match value with
  | none => .error (.failed s!"{label} continuation value is NULL")
  | some text =>
      match parseU64 text with
      | some number => .ok number
      | none => .error (.failed s!"{label} continuation value is not an unsigned integer")

-- require_topn_nulls over every ordinal from generation_id on, as both of its callers ask.
def requireTopNNulls (fields : TopNFields) : Except Fault Unit :=
  refuse (fields.generationId.isSome || fields.cursorRowId.isSome || fields.cursorRepeat || fields.offsetRemaining.isSome ||
      fields.limitRemaining.isSome || fields.tieBoundaryRowId.isSome || fields.diffLeg.isSome || fields.afterKind.isSome ||
      fields.afterChunkSeq.isSome || fields.afterRowOrdinal.isSome)
    "TopN continuation contains fields from another phase"

def decodeInput (kind : TopNPhaseKind) (fields : TopNFields) : Except Fault (Option StoredPosition) :=
  match kind, fields.inputChunkSeq, fields.inputRowOrdinal with
  | .admitted, some chunk, some row | .frontier, some chunk, some row => do
      let position ← StoredPosition.new fields.inputStreamId chunk row
      return some position
  | .select, none, none | .diff, none, none | .cleanup, none, none => .ok none
  | _, _, _ => .error (.failed "TopN continuation has an invalid input cursor shape")

def decodeTopNAfter (fields : TopNFields) : Except Fault StoredAfter :=
  decodeAfter "TopN continuation has an invalid Drain target" fields.inputStreamId fields.afterKind fields.afterChunkSeq
    fields.afterRowOrdinal

def decodePhase (kind : TopNPhaseKind) (fields : TopNFields) : Except Fault StoredPhase :=
  match kind with
  | .admitted => do
      requireTopNNulls fields
      return .admitted
  | .select => do
      refuse (fields.diffLeg.isSome || fields.cursorRepeat) "TopN Select continuation contains Diff state"
      let generationId ← omitted fields.generationId "TopN Select omitted its generation"
      let offsetRemaining ← parseU64Numeric fields.offsetRemaining "TopN OFFSET"
      let limitRemaining ← parseU64Numeric fields.limitRemaining "TopN LIMIT"
      let afterDrain ← decodeTopNAfter fields
      return .select generationId ⟨⟨fields.cursorRowId⟩, offsetRemaining, limitRemaining, fields.tieBoundaryRowId⟩ afterDrain
  | .diff => do
      refuse (fields.offsetRemaining.isSome || fields.limitRemaining.isSome || fields.tieBoundaryRowId.isSome)
        "TopN Diff continuation contains selection state"
      let generationId ← omitted fields.generationId "TopN Diff omitted its generation"
      let leg ← DiffLeg.fromCode "TopN Diff continuation has an invalid leg" fields.diffLeg
      let afterDrain ← decodeTopNAfter fields
      return .diff generationId leg ⟨fields.cursorRowId, fields.cursorRepeat⟩ afterDrain
  | .cleanup => do
      refuse (fields.offsetRemaining.isSome || fields.limitRemaining.isSome || fields.tieBoundaryRowId.isSome ||
          fields.diffLeg.isSome || fields.cursorRepeat)
        "TopN Cleanup continuation contains another phase's state"
      let generationId ← omitted fields.generationId "TopN Cleanup omitted its generation"
      let afterDrain ← decodeTopNAfter fields
      return .cleanup generationId ⟨fields.cursorRowId⟩ afterDrain
  | .frontier => do
      requireTopNNulls fields
      return .frontier

def decodeTopNFields (fields : TopNFields) : Except Fault StoredContinuation := do
  let code ← activePhaseCode fields.phase
  let kind ← TopNPhaseKind.fromCode code
  let input ← decodeInput kind fields
  let phase ← decodePhase kind fields
  return ⟨fields.inputStreamId, input, phase⟩

def StoredPhase.kind : StoredPhase → TopNPhaseKind
  | .admitted => .admitted
  | .select _ _ _ => .select
  | .diff _ _ _ _ => .diff
  | .cleanup _ _ _ => .cleanup
  | .frontier => .frontier

def encodeAfter (fields : TopNFields) (after : StoredAfter) : TopNFields :=
  { fields with
    afterKind := some after.kind
    afterChunkSeq := after.position.map StoredPosition.chunkSeq
    afterRowOrdinal := after.position.map StoredPosition.rowOrdinal }

-- u64's to_string.
def u64Text (value : Nat) : String := String.ofList (Nat.toDigits 10 value)

def encodeTopNFields (continuation : StoredContinuation) : TopNFields :=
  let fields : TopNFields :=
    { phase := continuation.phase.kind.code
      inputStreamId := continuation.inputStreamId
      inputChunkSeq := continuation.input.map StoredPosition.chunkSeq
      inputRowOrdinal := continuation.input.map StoredPosition.rowOrdinal }
  match continuation.phase with
  | .admitted | .frontier => fields
  | .select generationId progress afterDrain =>
      encodeAfter
        { fields with
          generationId := some generationId
          cursorRowId := progress.cursor.rowId
          offsetRemaining := some (u64Text progress.offsetRemaining)
          limitRemaining := some (u64Text progress.limitRemaining)
          tieBoundaryRowId := progress.tieBoundaryRowId } afterDrain
  | .diff generationId leg cursor afterDrain =>
      encodeAfter
        { fields with
          generationId := some generationId
          cursorRowId := cursor.rowId
          cursorRepeat := cursor.repeats
          diffLeg := some (DiffLeg.code leg) } afterDrain
  | .cleanup generationId cursor afterDrain =>
      encodeAfter { fields with generationId := some generationId, cursorRowId := cursor.rowId } afterDrain

def topnCodec : ContinuationCodec TopNFields StoredContinuation where
  owner := "TopN"
  columns := continuationColumns
  encode := fun continuation => .ok (encodeTopNFields continuation)
  decode := decodeTopNFields
  arguments := topnFieldArguments
  read := readTopNFields

-- Text that numeric_out wrote.
def canonicalText (value : Option String) : Prop := ∀ text, value = some text → ∃ number, text = String.ofList (numericOut number)

structure TopNFields.Canonical (fields : TopNFields) : Prop where
  offset : canonicalText fields.offsetRemaining
  limit : canonicalText fields.limitRemaining

def StoredPhase.Sound (streamId : Int) : StoredPhase → Prop
  | .admitted | .frontier => True
  | .select _ progress afterDrain =>
      progress.offsetRemaining < 2 ^ 64 ∧ progress.limitRemaining < 2 ^ 64 ∧ afterDrain.Valid streamId
  | .diff _ _ _ afterDrain | .cleanup _ _ afterDrain => afterDrain.Valid streamId

def inputSound (streamId : Int) (kind : TopNPhaseKind) (input : Option StoredPosition) : Prop :=
  match kind with
  | .admitted | .frontier => ∃ position, input = some position ∧ position.Valid streamId
  | .select | .diff | .cleanup => input = none

-- What decoding makes.
structure StoredContinuation.Sound (continuation : StoredContinuation) : Prop where
  input : inputSound continuation.inputStreamId continuation.phase.kind continuation.input
  phase : continuation.phase.Sound continuation.inputStreamId

theorem out_u64 (value : Nat) : String.ofList (numericOut (.finite value 0)) = u64Text value := by
  simp [numericOut, u64Text]

theorem parse_canonical (value : Option String) (label : String) (number : Nat) (canonical : canonicalText value) :
    parseU64Numeric value label = .ok number ↔ value = some (u64Text number) ∧ number < 2 ^ 64 := by
  cases value with
  | none => simp [parseU64Numeric]
  | some text =>
      obtain ⟨source, rfl⟩ := canonical text rfl
      rw [← out_u64]
      constructor
      · intro parsed
        unfold parseU64Numeric at parsed
        simp only at parsed
        split at parsed
        · rename_i other read
          obtain rfl := Except.ok.inj parsed
          obtain ⟨rfl, fits⟩ := (parse_u64_out _ _).mp read
          exact ⟨rfl, fits⟩
        · cases parsed
      · intro written
        obtain ⟨same, fits⟩ := written
        rw [Option.some.inj same]
        simp only [parseU64Numeric, (parse_u64_out _ number).mpr ⟨rfl, fits⟩]

theorem phase_kind_code (code : Int) (kind : TopNPhaseKind) : TopNPhaseKind.fromCode code = .ok kind ↔ code = kind.code := by
  constructor
  · intro ok
    unfold TopNPhaseKind.fromCode at ok
    repeat' split at ok
    all_goals first | cases ok; assumption | cases ok
  · intro same
    subst same
    cases kind <;> rfl

theorem active_kind (kind : TopNPhaseKind) : activePhaseCode kind.code = .ok kind.code := by
  cases kind <;> rfl

theorem leg_from_code (message : String) (value : Option Int) (leg : DiffLeg) :
    DiffLeg.fromCode message value = .ok leg ↔ value = some (DiffLeg.code leg) := by
  constructor
  · intro ok
    unfold DiffLeg.fromCode at ok
    split at ok
    · obtain rfl := Except.ok.inj ok
      rfl
    · obtain rfl := Except.ok.inj ok
      rfl
    · cases ok
  · intro same
    subst same
    cases leg <;> rfl

theorem decode_input (kind : TopNPhaseKind) (fields : TopNFields) (input : Option StoredPosition) :
    decodeInput kind fields = .ok input ↔
      inputSound fields.inputStreamId kind input ∧ fields.inputChunkSeq = input.map StoredPosition.chunkSeq ∧
        fields.inputRowOrdinal = input.map StoredPosition.rowOrdinal := by
  constructor
  · intro ok
    have positioned (chunk row : Int) (made : (StoredPosition.new fields.inputStreamId chunk row >>= fun position =>
          pure (some position)) = Except.ok input) :
        ∃ position, input = some position ∧ position.Valid fields.inputStreamId ∧ chunk = position.chunkSeq ∧
          row = position.rowOrdinal := by
      obtain ⟨position, made, same⟩ := bind_ok_iff.mp made
      obtain ⟨valid, placed⟩ := new_position.mp made
      exact ⟨position, (Except.ok.inj same).symm, valid, placed⟩
    unfold decodeInput at ok
    split at ok
    · rename_i chunk row chunked rowed
      obtain ⟨position, rfl, valid, rfl, rfl⟩ := positioned chunk row ok
      exact ⟨⟨position, rfl, valid⟩, chunked, rowed⟩
    · rename_i chunk row chunked rowed
      obtain ⟨position, rfl, valid, rfl, rfl⟩ := positioned chunk row ok
      exact ⟨⟨position, rfl, valid⟩, chunked, rowed⟩
    · rename_i chunked rowed
      obtain rfl := Except.ok.inj ok
      exact ⟨rfl, chunked, rowed⟩
    · rename_i chunked rowed
      obtain rfl := Except.ok.inj ok
      exact ⟨rfl, chunked, rowed⟩
    · rename_i chunked rowed
      obtain rfl := Except.ok.inj ok
      exact ⟨rfl, chunked, rowed⟩
    · cases ok
  · intro ⟨sound, chunked, rowed⟩
    unfold decodeInput
    rw [chunked, rowed]
    cases kind with
    | admitted | frontier =>
        obtain ⟨position, rfl, valid⟩ := sound
        exact bind_ok_iff.mpr ⟨position, new_position.mpr ⟨valid, rfl, rfl⟩, rfl⟩
    | select | diff | cleanup =>
        obtain rfl : input = none := sound
        rfl

-- The fields of one phase, behind the input's.
def phaseFields (head : TopNFields) (phase : StoredPhase) : TopNFields :=
  encodeTopNFields ⟨head.inputStreamId, none, phase⟩

-- The fields hold one phase and nothing else.
structure Holds (fields : TopNFields) (encoded : TopNFields) : Prop where
  generationId : fields.generationId = encoded.generationId
  cursorRowId : fields.cursorRowId = encoded.cursorRowId
  cursorRepeat : fields.cursorRepeat = encoded.cursorRepeat
  offsetRemaining : fields.offsetRemaining = encoded.offsetRemaining
  limitRemaining : fields.limitRemaining = encoded.limitRemaining
  tieBoundaryRowId : fields.tieBoundaryRowId = encoded.tieBoundaryRowId
  diffLeg : fields.diffLeg = encoded.diffLeg
  afterKind : fields.afterKind = encoded.afterKind
  afterChunkSeq : fields.afterChunkSeq = encoded.afterChunkSeq
  afterRowOrdinal : fields.afterRowOrdinal = encoded.afterRowOrdinal

theorem nulls_hold (fields : TopNFields) {phase : StoredPhase} (idle : phase = .admitted ∨ phase = .frontier) :
    requireTopNNulls fields = .ok () ↔ Holds fields (phaseFields fields phase) := by
  rw [requireTopNNulls, refuse_ok]
  simp only [Bool.or_eq_false_iff, Option.isSome_eq_false_iff, Option.isNone_iff_eq_none]
  constructor
  · intro ⟨⟨⟨⟨⟨⟨⟨⟨⟨generationId, cursorRowId⟩, cursorRepeat⟩, offset⟩, limit⟩, tie⟩, leg⟩, kind⟩, chunk⟩, row⟩
    rcases idle with rfl | rfl
    all_goals exact ⟨generationId, cursorRowId, cursorRepeat, offset, limit, tie, leg, kind, chunk, row⟩
  · intro held
    rcases idle with rfl | rfl
    all_goals
      exact ⟨⟨⟨⟨⟨⟨⟨⟨⟨held.generationId, held.cursorRowId⟩, held.cursorRepeat⟩, held.offsetRemaining⟩, held.limitRemaining⟩,
        held.tieBoundaryRowId⟩, held.diffLeg⟩, held.afterKind⟩, held.afterChunkSeq⟩, held.afterRowOrdinal⟩

theorem decode_phase (kind : TopNPhaseKind) (fields : TopNFields) (phase : StoredPhase) (canonical : fields.Canonical) :
    decodePhase kind fields = .ok phase ↔
      phase.kind = kind ∧ phase.Sound fields.inputStreamId ∧ Holds fields (phaseFields fields phase) := by
  constructor
  · intro ok
    cases kind with
    | admitted =>
        obtain ⟨_, absent, same⟩ := bind_ok_iff.mp ok
        obtain rfl := Except.ok.inj same
        exact ⟨rfl, trivial, (nulls_hold fields (.inl rfl)).mp absent⟩
    | frontier =>
        obtain ⟨_, absent, same⟩ := bind_ok_iff.mp ok
        obtain rfl := Except.ok.inj same
        exact ⟨rfl, trivial, (nulls_hold fields (.inr rfl)).mp absent⟩
    | select =>
        obtain ⟨plain, ok⟩ := refuse_bind_ok.mp ok
        obtain ⟨generationId, generation, ok⟩ := bind_ok_iff.mp ok
        obtain ⟨offset, offsetRead, ok⟩ := bind_ok_iff.mp ok
        obtain ⟨limit, limitRead, ok⟩ := bind_ok_iff.mp ok
        obtain ⟨after, target, ok⟩ := bind_ok_iff.mp ok
        obtain rfl := Except.ok.inj ok
        obtain ⟨legless, single⟩ := Bool.or_eq_false_iff.mp plain
        obtain ⟨offsetText, offsetFits⟩ := (parse_canonical _ _ _ canonical.offset).mp offsetRead
        obtain ⟨limitText, limitFits⟩ := (parse_canonical _ _ _ canonical.limit).mp limitRead
        obtain ⟨valid, coded, chunk, row⟩ := decode_after.mp target
        exact ⟨rfl, ⟨offsetFits, limitFits, valid⟩, omitted_ok.mp generation, rfl, single, offsetText, limitText, rfl,
          Option.isSome_eq_false_iff.mp legless |> Option.isNone_iff_eq_none.mp, coded, chunk, row⟩
    | diff =>
        obtain ⟨plain, ok⟩ := refuse_bind_ok.mp ok
        obtain ⟨generationId, generation, ok⟩ := bind_ok_iff.mp ok
        obtain ⟨leg, legged, ok⟩ := bind_ok_iff.mp ok
        obtain ⟨after, target, ok⟩ := bind_ok_iff.mp ok
        obtain rfl := Except.ok.inj ok
        simp only [Bool.or_eq_false_iff, Option.isSome_eq_false_iff, Option.isNone_iff_eq_none] at plain
        obtain ⟨⟨offset, limit⟩, tie⟩ := plain
        obtain ⟨valid, coded, chunk, row⟩ := decode_after.mp target
        exact ⟨rfl, valid, omitted_ok.mp generation, rfl, rfl, offset, limit, tie, (leg_from_code _ _ _).mp legged, coded,
          chunk, row⟩
    | cleanup =>
        obtain ⟨plain, ok⟩ := refuse_bind_ok.mp ok
        obtain ⟨generationId, generation, ok⟩ := bind_ok_iff.mp ok
        obtain ⟨after, target, ok⟩ := bind_ok_iff.mp ok
        obtain rfl := Except.ok.inj ok
        simp only [Bool.or_eq_false_iff, Option.isSome_eq_false_iff, Option.isNone_iff_eq_none] at plain
        obtain ⟨⟨⟨⟨offset, limit⟩, tie⟩, leg⟩, single⟩ := plain
        obtain ⟨valid, coded, chunk, row⟩ := decode_after.mp target
        exact ⟨rfl, valid, omitted_ok.mp generation, rfl, single, offset, limit, tie, leg, coded, chunk, row⟩
  · intro ⟨same, sound, held⟩
    subst same
    have target (after : StoredAfter) (valid : after.Valid fields.inputStreamId) (kind : fields.afterKind = some after.kind)
        (chunk : fields.afterChunkSeq = after.position.map StoredPosition.chunkSeq)
        (row : fields.afterRowOrdinal = after.position.map StoredPosition.rowOrdinal) : decodeTopNAfter fields = .ok after :=
      decode_after.mpr ⟨valid, kind, chunk, row⟩
    cases phase with
    | admitted => exact bind_ok_iff.mpr ⟨(), (nulls_hold fields (.inl rfl)).mpr held, rfl⟩
    | frontier => exact bind_ok_iff.mpr ⟨(), (nulls_hold fields (.inr rfl)).mpr held, rfl⟩
    | select generationId progress afterDrain =>
        obtain ⟨offsetFits, limitFits, valid⟩ := sound
        refine refuse_bind_ok.mpr ⟨?_, ?_⟩
        · rw [held.diffLeg, held.cursorRepeat]
          rfl
        · refine bind_ok_iff.mpr ⟨generationId, omitted_ok.mpr held.generationId, ?_⟩
          refine bind_ok_iff.mpr
            ⟨_, (parse_canonical _ _ _ canonical.offset).mpr ⟨held.offsetRemaining, offsetFits⟩, ?_⟩
          refine bind_ok_iff.mpr ⟨_, (parse_canonical _ _ _ canonical.limit).mpr ⟨held.limitRemaining, limitFits⟩, ?_⟩
          refine bind_ok_iff.mpr ⟨_, target afterDrain valid held.afterKind held.afterChunkSeq held.afterRowOrdinal, ?_⟩
          rw [held.cursorRowId, held.tieBoundaryRowId]
          rfl
    | diff generationId leg cursor afterDrain =>
        refine refuse_bind_ok.mpr ⟨?_, ?_⟩
        · rw [held.offsetRemaining, held.limitRemaining, held.tieBoundaryRowId]
          rfl
        · refine bind_ok_iff.mpr ⟨generationId, omitted_ok.mpr held.generationId, ?_⟩
          refine bind_ok_iff.mpr ⟨leg, (leg_from_code _ _ _).mpr held.diffLeg, ?_⟩
          refine bind_ok_iff.mpr ⟨_, target afterDrain sound held.afterKind held.afterChunkSeq held.afterRowOrdinal, ?_⟩
          rw [held.cursorRowId, held.cursorRepeat]
          rfl
    | cleanup generationId cursor afterDrain =>
        refine refuse_bind_ok.mpr ⟨?_, ?_⟩
        · rw [held.offsetRemaining, held.limitRemaining, held.tieBoundaryRowId, held.diffLeg, held.cursorRepeat]
          rfl
        · refine bind_ok_iff.mpr ⟨generationId, omitted_ok.mpr held.generationId, ?_⟩
          refine bind_ok_iff.mpr ⟨_, target afterDrain sound held.afterKind held.afterChunkSeq held.afterRowOrdinal, ?_⟩
          rw [held.cursorRowId]
          rfl

section

variable (datum : Datum) (name : String) (continuation : StoredContinuation)

theorem encoded_head :
    (encodeTopNFields continuation).phase = continuation.phase.kind.code ∧
      (encodeTopNFields continuation).inputStreamId = continuation.inputStreamId ∧
      (encodeTopNFields continuation).inputChunkSeq = continuation.input.map StoredPosition.chunkSeq ∧
      (encodeTopNFields continuation).inputRowOrdinal = continuation.input.map StoredPosition.rowOrdinal := by
  obtain ⟨streamId, input, phase⟩ := continuation
  cases phase <;> exact ⟨rfl, rfl, rfl, rfl⟩

-- Only the head of the fields says where the input stands.
theorem encoded_holds {continuation : StoredContinuation} {head : TopNFields}
    (stream : head.inputStreamId = continuation.inputStreamId) :
    Holds (encodeTopNFields continuation) (phaseFields head continuation.phase) := by
  obtain ⟨streamId, input, phase⟩ := continuation
  cases phase <;> exact ⟨rfl, rfl, rfl, rfl, rfl, rfl, rfl, rfl, rfl, rfl⟩

theorem holds_encoded (fields : TopNFields) (continuation : StoredContinuation)
    (phase : fields.phase = continuation.phase.kind.code) (stream : fields.inputStreamId = continuation.inputStreamId)
    (chunk : fields.inputChunkSeq = continuation.input.map StoredPosition.chunkSeq)
    (row : fields.inputRowOrdinal = continuation.input.map StoredPosition.rowOrdinal)
    (held : Holds fields (phaseFields fields continuation.phase)) : encodeTopNFields continuation = fields := by
  have other := encoded_holds stream
  obtain ⟨phased, streamed, chunked, rowed⟩ := encoded_head continuation
  obtain ⟨generationId, cursorRowId, cursorRepeat, offset, limit, tie, leg, kind, afterChunk, afterRow⟩ := held
  rw [← other.generationId] at generationId
  rw [← other.cursorRowId] at cursorRowId
  rw [← other.cursorRepeat] at cursorRepeat
  rw [← other.offsetRemaining] at offset
  rw [← other.limitRemaining] at limit
  rw [← other.tieBoundaryRowId] at tie
  rw [← other.diffLeg] at leg
  rw [← other.afterKind] at kind
  rw [← other.afterChunkSeq] at afterChunk
  rw [← other.afterRowOrdinal] at afterRow
  obtain ⟨_, _, _, _, _, _, _, _, _, _, _, _, _, _⟩ := fields
  simp only at *
  subst_vars
  rw [← phased, ← streamed, ← chunked, ← rowed]

theorem decode_topn (fields : TopNFields) (continuation : StoredContinuation) (canonical : fields.Canonical) :
    decodeTopNFields fields = .ok continuation ↔ continuation.Sound ∧ encodeTopNFields continuation = fields := by
  constructor
  · intro ok
    obtain ⟨code, active, ok⟩ := bind_ok_iff.mp ok
    obtain ⟨kind, kinded, ok⟩ := bind_ok_iff.mp ok
    obtain ⟨input, inputRead, ok⟩ := bind_ok_iff.mp ok
    obtain ⟨phase, phaseRead, ok⟩ := bind_ok_iff.mp ok
    obtain rfl := Except.ok.inj ok
    obtain ⟨_, same⟩ := refuse_bind_ok.mp active
    obtain rfl := Except.ok.inj same
    obtain ⟨inputSound, chunked, rowed⟩ := (decode_input kind fields input).mp inputRead
    obtain ⟨rfl, phaseSound, held⟩ := (decode_phase kind fields phase canonical).mp phaseRead
    exact ⟨⟨inputSound, phaseSound⟩, holds_encoded fields _ ((phase_kind_code _ _).mp kinded) rfl chunked rowed held⟩
  · intro ⟨sound, same⟩
    subst same
    obtain ⟨phased, streamed, chunked, rowed⟩ := encoded_head continuation
    refine bind_ok_iff.mpr ⟨continuation.phase.kind.code, ?_, ?_⟩
    · rw [phased]
      exact active_kind _
    · refine bind_ok_iff.mpr ⟨continuation.phase.kind, (phase_kind_code _ _).mpr rfl, ?_⟩
      refine bind_ok_iff.mpr ⟨continuation.input, (decode_input _ _ _).mpr ⟨?_, chunked, rowed⟩, ?_⟩
      · rw [streamed]
        exact sound.input
      · refine bind_ok_iff.mpr ⟨continuation.phase, (decode_phase _ _ _ canonical).mpr ⟨rfl, ?_, ?_⟩, ?_⟩
        · rw [streamed]
          exact sound.phase
        · exact encoded_holds streamed
        · rw [streamed]
          rfl

theorem encoded_canonical : (encodeTopNFields continuation).Canonical := by
  obtain ⟨streamId, input, phase⟩ := continuation
  have absent : canonicalText none := fun _ wrong => (by cases wrong)
  have written (value : Nat) : canonicalText (some (u64Text value)) := by
    intro text same
    exact ⟨.finite value 0, by rw [out_u64]; exact (Option.some.inj same).symm⟩
  cases phase with
  | select generationId progress afterDrain => exact ⟨written _, written _⟩
  | admitted => exact ⟨absent, absent⟩
  | diff _ _ _ _ => exact ⟨absent, absent⟩
  | cleanup _ _ _ => exact ⟨absent, absent⟩
  | frontier => exact ⟨absent, absent⟩

-- What a phase still has to skip and to select.
def StoredPhase.remaining : StoredPhase → Option (Nat × Nat)
  | .select _ progress _ => some (progress.offsetRemaining, progress.limitRemaining)
  | _ => none

def Datum.ofQuantity (value : Option Nat) : Datum := (value.map fun value => Datum.numeric (.finite value 0)).getD .null

-- The row that a continuation is written as.
def topnRow (continuation : StoredContinuation) : List Datum :=
  let fields := encodeTopNFields continuation
  let remaining := continuation.phase.remaining
  [.smallint fields.phase, .bigint fields.inputStreamId, .ofBigint fields.inputChunkSeq, .ofBigint fields.inputRowOrdinal,
   .ofBigint fields.generationId, .ofBigint fields.cursorRowId, .boolean fields.cursorRepeat,
   Datum.ofQuantity (remaining.map Prod.fst), Datum.ofQuantity (remaining.map Prod.snd), .ofBigint fields.tieBoundaryRowId,
   .ofSmallint fields.diffLeg, .ofSmallint fields.afterKind, .ofBigint fields.afterChunkSeq, .ofBigint fields.afterRowOrdinal]

theorem encoded_remaining :
    (encodeTopNFields continuation).offsetRemaining = (continuation.phase.remaining.map Prod.fst).map u64Text ∧
      (encodeTopNFields continuation).limitRemaining = (continuation.phase.remaining.map Prod.snd).map u64Text := by
  obtain ⟨streamId, input, phase⟩ := continuation
  cases phase <;> exact ⟨rfl, rfl⟩

theorem remaining_fits (sound : continuation.Sound) :
    (∀ value, continuation.phase.remaining.map Prod.fst = some value → value < 2 ^ 64) ∧
      ∀ value, continuation.phase.remaining.map Prod.snd = some value → value < 2 ^ 64 := by
  have fits := sound.phase
  obtain ⟨streamId, input, phase⟩ := continuation
  cases phase with
  | select generationId progress afterDrain =>
      constructor
      · intro value same
        obtain rfl := Option.some.inj same
        exact fits.1
      · intro value same
        obtain rfl := Option.some.inj same
        exact fits.2.1
  | admitted | diff _ _ _ _ | cleanup _ _ _ | frontier => exact ⟨fun _ wrong => (by cases wrong), fun _ wrong => (by cases wrong)⟩

theorem quantity_parameter (value : Option Nat) :
    (StoredColumn.nullableAs name .numeric).parameter (.ofText (value.map u64Text)) = .ok (Datum.ofQuantity value) := by
  cases value with
  | none => rfl
  | some value => exact bind_ok_iff.mpr ⟨.finite value 0, numeric_in_digits value, rfl⟩

theorem get_quantity (value : Option Nat) (fits : ∀ number, value = some number → number < 2 ^ 64) :
    getText datum = .ok (value.map u64Text) ↔ datum = Datum.ofQuantity value := by
  cases datum with
  | numeric number =>
      cases value with
      | none => simp [getText, Datum.ofQuantity]
      | some value =>
          have small := fits value rfl
          constructor
          · intro read
            have same := Option.some.inj (Except.ok.inj read)
            have parsed := (parse_u64_out number value).mp (by rw [same]; exact parse_u64_digits value small)
            rw [parsed.1]
            rfl
          · intro same
            obtain rfl := Datum.numeric.inj same
            exact congrArg (fun text => Except.ok (some text)) (out_u64 value)
  | null => cases value <;> simp [getText, Datum.ofQuantity]
  | smallint _ | integer _ | bigint _ | boolean _ | text _ => cases value <;> simp [getText, Datum.ofQuantity, mismatched]

theorem get_text_canonical (value : Option String) (read : getText datum = .ok value) : canonicalText value := by
  cases datum with
  | numeric number =>
      obtain rfl := Except.ok.inj read
      intro text same
      exact ⟨number, (Option.some.inj same).symm⟩
  | null =>
      obtain rfl := Except.ok.inj read
      exact fun _ wrong => (by cases wrong)
  | smallint _ => cases read
  | integer _ => cases read
  | bigint _ => cases read
  | boolean _ => cases read
  | text _ => cases read

theorem read_topn (row : List Datum) (fields : TopNFields) :
    readTopNFields row = .ok fields ↔ ∃ offset limit,
      row = [.smallint fields.phase, .bigint fields.inputStreamId, .ofBigint fields.inputChunkSeq,
        .ofBigint fields.inputRowOrdinal, .ofBigint fields.generationId, .ofBigint fields.cursorRowId,
        .boolean fields.cursorRepeat, offset, limit, .ofBigint fields.tieBoundaryRowId, .ofSmallint fields.diffLeg,
        .ofSmallint fields.afterKind, .ofBigint fields.afterChunkSeq, .ofBigint fields.afterRowOrdinal] ∧
      getText offset = .ok fields.offsetRemaining ∧ getText limit = .ok fields.limitRemaining := by
  constructor
  · intro ok
    unfold readTopNFields at ok
    split at ok
    · rename_i offset limit _ _ _ _ _
      obtain ⟨_, phase, ok⟩ := bind_ok_iff.mp ok
      obtain ⟨_, stream, ok⟩ := bind_ok_iff.mp ok
      obtain ⟨_, chunk, ok⟩ := bind_ok_iff.mp ok
      obtain ⟨_, ordinal, ok⟩ := bind_ok_iff.mp ok
      obtain ⟨_, generation, ok⟩ := bind_ok_iff.mp ok
      obtain ⟨_, cursor, ok⟩ := bind_ok_iff.mp ok
      obtain ⟨_, repeats, ok⟩ := bind_ok_iff.mp ok
      obtain ⟨_, offsetRead, ok⟩ := bind_ok_iff.mp ok
      obtain ⟨_, limitRead, ok⟩ := bind_ok_iff.mp ok
      obtain ⟨_, tie, ok⟩ := bind_ok_iff.mp ok
      obtain ⟨_, leg, ok⟩ := bind_ok_iff.mp ok
      obtain ⟨_, kind, ok⟩ := bind_ok_iff.mp ok
      obtain ⟨_, afterChunk, ok⟩ := bind_ok_iff.mp ok
      obtain ⟨_, afterRow, ok⟩ := bind_ok_iff.mp ok
      obtain rfl := Except.ok.inj ok
      refine ⟨offset, limit, ?_, offsetRead, limitRead⟩
      rw [(get_smallint_required _ _ _).mp phase, (get_bigint_required _ _ _).mp stream, (get_bigint _ _).mp chunk,
        (get_bigint _ _).mp ordinal, (get_bigint _ _).mp generation, (get_bigint _ _).mp cursor,
        (get_boolean_required _ _ _).mp repeats, (get_bigint _ _).mp tie, (get_smallint _ _).mp leg, (get_smallint _ _).mp kind,
        (get_bigint _ _).mp afterChunk, (get_bigint _ _).mp afterRow]
    · cases ok
  · intro ⟨offset, limit, same, offsetRead, limitRead⟩
    subst same
    simp only [readTopNFields, get_required_smallint, get_required_bigint, get_required_boolean, get_bigint_of, get_smallint_of,
      offsetRead, limitRead, ok_bind]
    rfl

theorem quantity_admitted (value : Option Nat) :
    (StoredColumn.nullableAs name .numeric).admits (Datum.ofQuantity value) = true := by
  cases value <;> rfl

theorem quantity_whole (value : Option Nat) : (Datum.ofQuantity value).Whole := by
  cases value with
  | none => trivial
  | some value => exact ⟨value, rfl⟩

theorem topn_cast :
    castParameters topnCodec.fields (topnFieldArguments (encodeTopNFields continuation)) = .ok (topnRow continuation) := by
  obtain ⟨offset, limit⟩ := encoded_remaining continuation
  unfold topnFieldArguments topnRow
  rw [offset, limit]
  simp only [ContinuationCodec.fields, topnCodec, continuationColumns, List.drop_one, List.tail_cons, castParameters,
    quantity_parameter, ok_bind]
  rfl

end

theorem topn_lawful : topnCodec.Lawful StoredContinuation.Sound TopNFields.Canonical := by
  constructor
  · exact List.cons_ne_nil _ _
  · intro fields continuation canonical
    constructor
    · intro decoded
      obtain ⟨sound, same⟩ := (decode_topn fields continuation canonical).mp decoded
      exact ⟨sound, congrArg Except.ok same⟩
    · intro read
      obtain ⟨sound, same⟩ := read
      exact (decode_topn fields continuation canonical).mpr ⟨sound, Except.ok.inj same⟩
  · intro continuation _
    exact ⟨_, rfl, encoded_canonical continuation⟩
  · intro row fields _ read
    obtain ⟨offset, limit, _, offsetRead, limitRead⟩ := (read_topn row fields).mp read
    exact ⟨get_text_canonical offset _ offsetRead, get_text_canonical limit _ limitRead⟩
  · intro fields
    rfl
  · intro continuation fields sound encoded
    obtain rfl := Except.ok.inj encoded
    obtain ⟨offsetFits, limitFits⟩ := remaining_fits continuation sound
    obtain ⟨offsetText, limitText⟩ := encoded_remaining continuation
    refine ⟨topnRow continuation, topn_cast continuation, ?_, ?_, ?_⟩
    · simp only [topnRow, ContinuationCodec.fields, topnCodec, continuationColumns, List.drop_one, List.tail_cons, admitsAll,
        admits_of_bigint, admits_of_smallint, quantity_admitted]
      rfl
    · simp only [topnRow, List.forall_mem_cons, whole_of_bigint, whole_of_smallint, quantity_whole, true_and]
      exact ⟨trivial, trivial, trivial, fun _ wrong => (by cases wrong)⟩
    · intro other _
      rw [show topnCodec.read = readTopNFields from rfl, read_topn, offsetText, limitText]
      constructor
      · intro read
        obtain ⟨offset, limit, same, offsetRead, limitRead⟩ := read
        rw [same, (get_quantity _ _ offsetFits).mp offsetRead, (get_quantity _ _ limitFits).mp limitRead]
        rfl
      · intro same
        exact ⟨_, _, same, (get_quantity _ _ offsetFits).mpr rfl, (get_quantity _ _ limitFits).mpr rfl⟩

def storedPosition (position : InputPosition) : StoredPosition := ⟨position.streamId, position.chunkSeq, position.rowOrdinal⟩

def AfterDrain.stored : AfterDrain → StoredAfter
  | .admitted next => .resumes (storedPosition next)
  | .finishInput => .finishes
  | .frontier position => .frontier (storedPosition position)

def TopNPhase.stored : TopNPhase → StoredPhase
  | .admitted => .admitted
  | .select generationId progress afterDrain => .select generationId progress afterDrain.stored
  | .diff generationId leg cursor afterDrain => .diff generationId leg cursor afterDrain.stored
  | .cleanup generationId cursor afterDrain => .cleanup generationId cursor afterDrain.stored
  | .frontier => .frontier

-- The machine's own continuation, with its identifiers as columns hold them.
def TopNContinuation.stored (continuation : TopNContinuation) : StoredContinuation :=
  ⟨continuation.inputStreamId, continuation.input.map storedPosition, continuation.phase.stored⟩

-- What transitions make of a continuation that the machine starts on.
inductive Produced (machine : TopNMachine) : TopNContinuation → Prop where
  | start (continuation : TopNContinuation) (valid : machine.validateContinuation continuation = .ok ()) :
      Produced machine continuation
  | next (before after : TopNContinuation) (result : TopNActionResult) (budget : WorkBudget) (facts : PrimitiveFacts)
      (previous : Produced machine before) (taken : machine.apply before result budget = .ok ⟨some after, facts⟩) :
      Produced machine after

theorem position_valid (position : InputPosition) (streamId : Nat) {message : String}
    (placed : refuse (decide (position.streamId = 0) || decide (position.chunkSeq = 0)) message = .ok ())
    (stream : position.streamId = streamId) : (storedPosition position).Valid streamId := by
  have inside := refuse_ok.mp placed
  rw [Bool.or_eq_false_iff, decide_eq_false_iff_not, decide_eq_false_iff_not] at inside
  subst stream
  refine ⟨rfl, Int.natCast_pos.mpr (Nat.pos_of_ne_zero inside.1), Int.natCast_pos.mpr (Nat.pos_of_ne_zero inside.2),
    Int.natCast_nonneg _⟩

theorem after_valid (streamId : Nat) (after : AfterDrain) (valid : validateAfterDrain streamId after = .ok ()) :
    after.stored.Valid streamId := by
  obtain ⟨_, valid⟩ := refuse_bind_ok.mp valid
  intro position listed
  cases after with
  | finishInput => cases listed
  | admitted next =>
      obtain rfl := Option.some.inj listed
      obtain ⟨_, placed, stream⟩ := bind_ok_iff.mp valid
      exact position_valid next streamId placed (by simpa using refuse_ok.mp stream)
  | frontier frontier =>
      obtain rfl := Option.some.inj listed
      obtain ⟨_, placed, stream⟩ := bind_ok_iff.mp valid
      have kept := (Bool.or_eq_false_iff.mp (refuse_ok.mp stream)).1
      exact position_valid frontier streamId placed (by simpa using kept)

theorem progress_fits (machine : TopNMachine) (progress : SelectionProgress) (valid : progress.validate machine = .ok ()) :
    progress.offsetRemaining ≤ machine.offset ∧ progress.limitRemaining ≤ machine.limit := by
  have valid := past_check (past_check valid)
  obtain ⟨inside, _⟩ := refuse_bind_ok.mp valid
  rw [Bool.or_eq_false_iff, decide_eq_false_iff_not, decide_eq_false_iff_not] at inside
  omega

-- The machine's offset and limit are u64s.
structure TopNMachine.Fits (machine : TopNMachine) : Prop where
  offset : machine.offset < 2 ^ 64
  limit : machine.limit < 2 ^ 64

theorem transition_next {first after : TopNContinuation} {made facts : PrimitiveFacts}
    (same : (Except.ok ⟨some first, made⟩ : Except Fault TopNTransition) = .ok ⟨some after, facts⟩) : first = after :=
  Option.some.inj (TopNTransition.mk.inj (Except.ok.inj same)).1

section Produced

variable (machine : TopNMachine) (fits : machine.Fits)

include fits

variable (before continuation : TopNContinuation)

theorem validated_sound (valid : machine.validateContinuation continuation = .ok ()) :
    continuation.stored.Sound := by
  obtain ⟨streamId, input, phase⟩ := continuation
  obtain ⟨_, valid⟩ := refuse_bind_ok.mp valid
  cases phase with
  | admitted | frontier =>
      cases input with
      | none => cases valid
      | some input =>
          obtain ⟨_, placed, valid⟩ := bind_ok_iff.mp valid
          obtain ⟨stream, _⟩ := refuse_bind_ok.mp valid
          exact ⟨⟨_, rfl, position_valid input streamId placed (by simpa using stream)⟩, trivial⟩
  | select generationId progress afterDrain =>
      obtain ⟨_, _, valid⟩ := bind_ok_iff.mp valid
      obtain ⟨_, measured, valid⟩ := bind_ok_iff.mp valid
      obtain ⟨_, valid⟩ := refuse_bind_ok.mp valid
      obtain ⟨absent, valid⟩ := refuse_bind_ok.mp valid
      obtain rfl := Option.isNone_iff_eq_none.mp (Option.isSome_eq_false_iff.mp absent)
      obtain ⟨offset, limit⟩ := progress_fits machine progress measured
      exact ⟨rfl, Nat.lt_of_le_of_lt offset fits.offset, Nat.lt_of_le_of_lt limit fits.limit, after_valid streamId afterDrain valid⟩
  | _ =>
      have valid := past_check (past_check valid)
      obtain ⟨absent, valid⟩ := refuse_bind_ok.mp valid
      obtain rfl := Option.isNone_iff_eq_none.mp (Option.isSome_eq_false_iff.mp absent)
      exact ⟨rfl, after_valid streamId _ valid⟩

-- A drain that goes on keeps its target.
theorem drained_sound (after : AfterDrain) (valid : machine.validateContinuation before = .ok ())
    (target : phaseAfterDrain before.phase = .ok after) : after.stored.Valid before.inputStreamId := by
  have sound := (validated_sound machine fits before valid).phase
  obtain ⟨streamId, input, phase⟩ := before
  cases phase with
  | admitted => cases target
  | frontier => cases target
  | select _ _ _ =>
      obtain rfl := Except.ok.inj target
      exact sound.2.2
  | _ =>
      obtain rfl := Except.ok.inj target
      exact sound

theorem apply_sound (after : TopNContinuation) (result : TopNActionResult) (budget : WorkBudget) (facts : PrimitiveFacts)
    (taken : machine.apply before result budget = .ok ⟨some after, facts⟩) : after.stored.Sound := by
  obtain ⟨action, acted, taken⟩ := bind_ok_iff.mp taken
  obtain ⟨_, valid, _⟩ := bind_ok_iff.mp acted
  have drained := drained_sound machine fits before
  cases action with
  | admitted input =>
      cases result with
      | admitted admission =>
          have taken := past_check (past_check (past_check taken))
          obtain ⟨admittedFacts, target⟩ := admission
          cases target with
          | continuing next | drain generationId afterDrain =>
              have taken := past_check (past_check taken)
              obtain ⟨_, checked, taken⟩ := bind_ok_iff.mp taken
              obtain rfl := transition_next taken
              exact validated_sound machine fits _ checked
          | idle => cases taken
      | _ => cases taken
  | selectCandidates generationId progress =>
      cases result with
      | selected selected =>
          obtain ⟨_, _, taken⟩ := bind_ok_iff.mp taken
          obtain ⟨_, measured, taken⟩ := bind_ok_iff.mp taken
          have taken := past_check (past_check taken)
          obtain ⟨afterDrain, target, taken⟩ := bind_ok_iff.mp taken
          obtain rfl := transition_next taken
          have kept := drained afterDrain valid target
          obtain ⟨offset, limit⟩ := progress_fits machine selected.progress measured
          simp only [TopNContinuation.stored]
          by_cases complete : selected.page.complete = true
          · rw [if_pos complete]
            exact ⟨rfl, kept⟩
          · rw [if_neg complete]
            exact ⟨rfl, Nat.lt_of_le_of_lt offset fits.offset, Nat.lt_of_le_of_lt limit fits.limit, kept⟩
      | _ => cases taken
  | diff generationId leg cursor =>
      cases result with
      | diffed page =>
          obtain ⟨_, _, taken⟩ := bind_ok_iff.mp taken
          obtain ⟨afterDrain, target, taken⟩ := bind_ok_iff.mp taken
          obtain rfl := transition_next taken
          have kept := drained afterDrain valid target
          simp only [TopNContinuation.stored]
          by_cases complete : page.complete = true
          · rw [if_pos complete]
            cases leg with
            | remove => exact ⟨rfl, kept⟩
            | add => exact ⟨rfl, kept⟩
          · rw [if_neg complete]
            exact ⟨rfl, kept⟩
      | _ => cases taken
  | cleanup generationId cursor =>
      cases result with
      | cleaned page =>
          obtain ⟨_, _, taken⟩ := bind_ok_iff.mp taken
          obtain ⟨afterDrain, target, taken⟩ := bind_ok_iff.mp taken
          have kept := drained afterDrain valid target
          have same := (TopNTransition.mk.inj (Except.ok.inj taken)).1
          by_cases complete : page.complete = true
          · rw [if_pos complete] at same
            cases afterDrain with
            | finishInput => cases same
            | admitted next | frontier frontier =>
                obtain rfl := Option.some.inj same
                exact ⟨⟨_, rfl, kept _ rfl⟩, trivial⟩
          · rw [if_neg complete] at same
            obtain rfl := Option.some.inj same
            exact ⟨rfl, kept⟩
      | _ => cases taken
  | forwardFrontier input =>
      cases result with
      | frontierForwarded frontierFacts =>
          have taken := past_check (past_check taken)
          cases taken
      | _ => cases taken

theorem produced_sound (produced : Produced machine continuation) :
    continuation.stored.Sound := by
  cases produced with
  | start _ valid => exact validated_sound machine fits continuation valid
  | next before _ result budget facts previous taken => exact apply_sound machine fits before continuation result budget facts taken

end Produced

-- A continuation that some machine comes to, as its row holds it.
def ProducedRow (stored : StoredContinuation) : Prop :=
  ∃ machine continuation, TopNMachine.Fits machine ∧ Produced machine continuation ∧ stored = continuation.stored

theorem topn_round_trips : topnCodec.RoundTrips TopNFields.Canonical ProducedRow (fun _ => True) := by
  apply ContinuationCodec.round_trips topn_lawful
  · intro stored ⟨machine, continuation, fits, produced, same⟩ _
    rw [same]
    exact produced_sound machine fits continuation produced
  · intro _ _ _
    trivial

end Shiba.TopN
