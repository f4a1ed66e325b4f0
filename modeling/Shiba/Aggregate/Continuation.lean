import Shiba.Aggregate.Machine

set_option autoImplicit false

namespace Shiba.Aggregate

open Shiba.Execution

structure AggregateFields where
  phase : Int
  inputStreamId : Int
  inputChunkSeq : Option Int
  inputRowOrdinal : Option Int
  groupQueueId : Option Int := none
  aggregateOrdinal : Option Int32 := none
  emitLeg : Option Int := none
  afterKind : Option Int := none
  afterChunkSeq : Option Int := none
  afterRowOrdinal : Option Int := none
deriving DecidableEq, Repr

def continuationColumns : List StoredColumn :=
  [.required "singleton" .boolean, .required "phase" .smallint, .required "input_stream_id" .bigint,
   .nullable "input_chunk_seq" .bigint, .nullable "input_row_ordinal" .bigint, .nullable "group_queue_id" .bigint,
   .nullable "aggregate_ordinal" .integer, .nullable "emit_leg" .smallint, .nullable "after_kind" .smallint,
   .nullable "after_chunk_seq" .bigint, .nullable "after_row_ordinal" .bigint]

def aggregateFieldArguments (fields : AggregateFields) : List Datum :=
  [.smallint fields.phase, .bigint fields.inputStreamId, .ofBigint fields.inputChunkSeq, .ofBigint fields.inputRowOrdinal,
   .ofBigint fields.groupQueueId, .ofInteger fields.aggregateOrdinal, .ofSmallint fields.emitLeg, .ofSmallint fields.afterKind,
   .ofBigint fields.afterChunkSeq, .ofBigint fields.afterRowOrdinal]

-- load_execute_continuation's row.
def readAggregateFields : List Datum → Except Fault AggregateFields
  | [phase, inputStreamId, inputChunkSeq, inputRowOrdinal, groupQueueId, aggregateOrdinal, emitLeg, afterKind, afterChunkSeq,
     afterRowOrdinal] => do
      let phase ← getRequired (getSmallint phase) "database returned NULL Aggregate phase"
      let inputStreamId ← getRequired (getBigint inputStreamId) "database returned NULL Aggregate input stream"
      let inputChunkSeq ← getBigint inputChunkSeq
      let inputRowOrdinal ← getBigint inputRowOrdinal
      let groupQueueId ← getBigint groupQueueId
      let aggregateOrdinal ← getInteger aggregateOrdinal
      let emitLeg ← getSmallint emitLeg
      let afterKind ← getSmallint afterKind
      let afterChunkSeq ← getBigint afterChunkSeq
      let afterRowOrdinal ← getBigint afterRowOrdinal
      return ⟨phase, inputStreamId, inputChunkSeq, inputRowOrdinal, groupQueueId, aggregateOrdinal, emitLeg, afterKind,
        afterChunkSeq, afterRowOrdinal⟩
  | _ => mismatched

def applyPhase : Int := 1

def drainRebuildPhase : Int := 2

def drainEmitPhase : Int := 3

def frontierPhase : Int := 4

-- Unlike its siblings', this decoder takes a frontier at row 0 only.
def decodeAfterDrain (fields : AggregateFields) : Except Fault AfterDrain :=
  match fields.afterKind, fields.afterChunkSeq, fields.afterRowOrdinal with
  | some 1, some chunk, some row => do
      let position ← StoredPosition.new fields.inputStreamId chunk row
      return .apply position
  | some 2, none, none => .ok .idle
  | some 3, some chunk, some 0 => do
      let position ← StoredPosition.new fields.inputStreamId chunk 0
      return .frontier position
  | _, _, _ => .error (.failed "Aggregate continuation has an invalid Drain target")

def decodeInput (fields : AggregateFields) : Except Fault (Option InputPosition) :=
  decodePosition "Aggregate continuation has a partial input cursor" fields.inputStreamId fields.inputChunkSeq
    fields.inputRowOrdinal

def AggregateFields.idle (fields : AggregateFields) : Bool :=
  fields.groupQueueId.isNone && fields.aggregateOrdinal.isNone && fields.emitLeg.isNone && fields.afterKind.isNone &&
    fields.afterChunkSeq.isNone && fields.afterRowOrdinal.isNone

def EmitLeg.code : EmitLeg → Int
  | .decide => 1
  | .insertPending => 2

def EmitLeg.fromCode : Int → Except Fault EmitLeg
  | 1 => .ok .decide
  | 2 => .ok .insertPending
  | _ => .error (.failed "Aggregate continuation has an invalid emit leg")

def notOnePhase {α : Type} : Except Fault α := .error (.failed "Aggregate continuation fields do not encode one phase")

-- A guard that fails falls through to the last arm, as no two arms share a phase code.
def decodePhase (fields : AggregateFields) (input : Option InputPosition) : Except Fault AggregatePhase :=
  if fields.phase = applyPhase then
    if input.isSome && fields.idle then .ok .apply else notOnePhase
  else if fields.phase = frontierPhase then
    if input.isSome && fields.idle then .ok .frontier else notOnePhase
  else if fields.phase = drainRebuildPhase then
    match input, fields.groupQueueId, fields.aggregateOrdinal, fields.emitLeg with
    | none, some groupQueueId, some aggregateOrdinal, none => do
        let aggregateOrdinal ← ordinalOf aggregateOrdinal "Aggregate ordinal is negative"
        let after ← decodeAfterDrain fields
        return .drainRebuild groupQueueId aggregateOrdinal after
    | _, _, _, _ => notOnePhase
  else if fields.phase = drainEmitPhase then
    match input, fields.groupQueueId, fields.aggregateOrdinal, fields.emitLeg with
    | none, some groupQueueId, none, some leg => do
        let leg ← EmitLeg.fromCode leg
        let after ← decodeAfterDrain fields
        return .drainEmit groupQueueId leg after
    | _, _, _, _ => notOnePhase
  else notOnePhase

def decodeExecuteFields (fields : AggregateFields) : Except Fault AggregateContinuation := do
  let input ← decodeInput fields
  let phase ← decodePhase fields input
  return ⟨fields.inputStreamId, input, phase⟩

def AfterDrain.kind : AfterDrain → Int
  | .apply _ => 1
  | .idle => 2
  | .frontier _ => 3

def AfterDrain.position : AfterDrain → Option InputPosition
  | .apply position | .frontier position => some position
  | .idle => none

def encodeAfterDrain (fields : AggregateFields) (after : AfterDrain) : AggregateFields :=
  { fields with
    afterKind := some after.kind
    afterChunkSeq := after.position.map StoredPosition.chunkSeq
    afterRowOrdinal := after.position.map StoredPosition.rowOrdinal }

def AggregatePhase.code : AggregatePhase → Int
  | .apply => applyPhase
  | .drainRebuild _ _ _ => drainRebuildPhase
  | .drainEmit _ _ _ => drainEmitPhase
  | .frontier => frontierPhase

def encodeExecuteFields (continuation : AggregateContinuation) : Except Fault AggregateFields :=
  let fields : AggregateFields :=
    { phase := continuation.phase.code
      inputStreamId := continuation.inputStreamId
      inputChunkSeq := continuation.input.map StoredPosition.chunkSeq
      inputRowOrdinal := continuation.input.map StoredPosition.rowOrdinal }
  match continuation.phase with
  | .apply | .frontier => .ok fields
  | .drainRebuild groupQueueId aggregateOrdinal after => do
      let ordinal ← integerOf aggregateOrdinal "Aggregate ordinal exceeds integer"
      return encodeAfterDrain { fields with groupQueueId := some groupQueueId, aggregateOrdinal := some ordinal } after
  | .drainEmit groupQueueId leg after =>
      .ok (encodeAfterDrain { fields with groupQueueId := some groupQueueId, emitLeg := some leg.code } after)

def aggregateCodec : ContinuationCodec AggregateFields AggregateContinuation where
  owner := "Aggregate"
  columns := continuationColumns
  encode := encodeExecuteFields
  decode := decodeExecuteFields
  arguments := aggregateFieldArguments
  read := readAggregateFields

def AfterDrain.Valid (after : AfterDrain) (streamId : Int) : Prop :=
  (∀ position, after.position = some position → position.Valid streamId) ∧
    ∀ position, after = .frontier position → position.rowOrdinal = 0

def AggregatePhase.Sound (continuation : AggregateContinuation) : Prop :=
  match continuation.phase with
  | .apply | .frontier => continuation.input.isSome = true
  | .drainRebuild _ aggregateOrdinal after =>
      continuation.input = none ∧ aggregateOrdinal < 2 ^ 31 ∧ after.Valid continuation.inputStreamId
  | .drainEmit _ _ after => continuation.input = none ∧ after.Valid continuation.inputStreamId

-- What decoding makes.
structure AggregateContinuation.Sound (continuation : AggregateContinuation) : Prop where
  input : ∀ position, continuation.input = some position → position.Valid continuation.inputStreamId
  phase : AggregatePhase.Sound continuation

section

variable (fields : AggregateFields) (continuation : AggregateContinuation)

theorem decode_after_drain (after : AfterDrain) :
    decodeAfterDrain fields = .ok after ↔
      after.Valid fields.inputStreamId ∧ fields.afterKind = some after.kind ∧
        fields.afterChunkSeq = after.position.map StoredPosition.chunkSeq ∧
        fields.afterRowOrdinal = after.position.map StoredPosition.rowOrdinal := by
  constructor
  · intro ok
    unfold decodeAfterDrain at ok
    split at ok
    · rename_i chunk row coded chunked rowed
      obtain ⟨position, made, same⟩ := bind_ok_iff.mp ok
      obtain rfl := Except.ok.inj same
      obtain ⟨valid, rfl, rfl⟩ := new_position.mp made
      refine ⟨⟨?_, fun _ wrong => (by cases wrong)⟩, coded, chunked, rowed⟩
      intro other listed
      obtain rfl := Option.some.inj listed
      exact valid
    · rename_i coded chunked rowed
      obtain rfl := Except.ok.inj ok
      exact ⟨⟨fun _ wrong => (by cases wrong), fun _ wrong => (by cases wrong)⟩, coded, chunked, rowed⟩
    · rename_i chunk coded chunked rowed
      obtain ⟨position, made, same⟩ := bind_ok_iff.mp ok
      obtain rfl := Except.ok.inj same
      obtain ⟨valid, rfl, first⟩ := new_position.mp made
      refine ⟨⟨?_, ?_⟩, coded, chunked, by rw [rowed, first]; rfl⟩
      · intro other listed
        obtain rfl := Option.some.inj listed
        exact valid
      · intro other listed
        obtain rfl := AfterDrain.frontier.inj listed
        exact first.symm
    · cases ok
  · intro ⟨⟨valid, first⟩, coded, chunked, rowed⟩
    unfold decodeAfterDrain
    rw [coded, chunked, rowed]
    cases after with
    | idle => rfl
    | apply position =>
        exact bind_ok_iff.mpr ⟨position, new_position.mpr ⟨valid position rfl, rfl, rfl⟩, rfl⟩
    | frontier position =>
        have start := first position rfl
        simp only [AfterDrain.position, AfterDrain.kind, Option.map_some, start]
        exact bind_ok_iff.mpr ⟨position, new_position.mpr ⟨valid position rfl, rfl, start.symm⟩, rfl⟩

theorem leg_from_code (code : Int) (leg : EmitLeg) : EmitLeg.fromCode code = .ok leg ↔ code = leg.code := by
  constructor
  · intro ok
    unfold EmitLeg.fromCode at ok
    split at ok
    · obtain rfl := Except.ok.inj ok
      rfl
    · obtain rfl := Except.ok.inj ok
      rfl
    · cases ok
  · intro same
    subst same
    cases leg <;> rfl

-- An ordinal beyond i32 has no column to be in.
def AggregatePhase.ordinalFits : AggregatePhase → Prop
  | .drainRebuild _ aggregateOrdinal _ => aggregateOrdinal < 2 ^ 31
  | _ => True

-- The fields of a continuation whose ordinal fits.
def writtenFields (continuation : AggregateContinuation) : AggregateFields :=
  let fields : AggregateFields :=
    { phase := continuation.phase.code
      inputStreamId := continuation.inputStreamId
      inputChunkSeq := continuation.input.map StoredPosition.chunkSeq
      inputRowOrdinal := continuation.input.map StoredPosition.rowOrdinal }
  match continuation.phase with
  | .apply | .frontier => fields
  | .drainRebuild groupQueueId aggregateOrdinal after =>
      encodeAfterDrain
        { fields with groupQueueId := some groupQueueId, aggregateOrdinal := some (Int32.ofNat aggregateOrdinal) } after
  | .drainEmit groupQueueId leg after =>
      encodeAfterDrain { fields with groupQueueId := some groupQueueId, emitLeg := some leg.code } after

theorem encode_written (fields : AggregateFields) :
    encodeExecuteFields continuation = .ok fields ↔ continuation.phase.ordinalFits ∧ writtenFields continuation = fields := by
  obtain ⟨streamId, input, phase⟩ := continuation
  cases phase with
  | apply | frontier | drainEmit groupQueueId leg after => exact ⟨fun ok => ⟨trivial, Except.ok.inj ok⟩, fun same => congrArg Except.ok same.2⟩
  | drainRebuild groupQueueId aggregateOrdinal after =>
      constructor
      · intro ok
        obtain ⟨ordinal, fitted, same⟩ := bind_ok_iff.mp ok
        obtain ⟨fits, rfl⟩ := (integer_of _ _ _).mp fitted
        exact ⟨fits, Except.ok.inj same⟩
      · intro ⟨fits, same⟩
        exact bind_ok_iff.mpr ⟨_, (integer_of _ _ _).mpr ⟨fits, rfl⟩, congrArg Except.ok same⟩

theorem idle_fields :
    fields.idle = true ↔ fields = ⟨fields.phase, fields.inputStreamId, fields.inputChunkSeq, fields.inputRowOrdinal, none, none,
      none, none, none, none⟩ := by
  obtain ⟨phase, streamId, chunk, row, groupQueueId, ordinal, leg, kind, afterChunk, afterRow⟩ := fields
  simp only [AggregateFields.idle, Bool.and_eq_true, Option.isNone_iff_eq_none, AggregateFields.mk.injEq, true_and]
  constructor
  · intro ⟨⟨⟨⟨⟨groupQueueId, ordinal⟩, leg⟩, kind⟩, afterChunk⟩, afterRow⟩
    exact ⟨groupQueueId, ordinal, leg, kind, afterChunk, afterRow⟩
  · intro ⟨groupQueueId, ordinal, leg, kind, afterChunk, afterRow⟩
    exact ⟨⟨⟨⟨⟨groupQueueId, ordinal⟩, leg⟩, kind⟩, afterChunk⟩, afterRow⟩

theorem decode_phase_inv (input : Option InputPosition) (phase : AggregatePhase)
    (chunked : fields.inputChunkSeq = input.map StoredPosition.chunkSeq)
    (rowed : fields.inputRowOrdinal = input.map StoredPosition.rowOrdinal) (ok : decodePhase fields input = .ok phase) :
    AggregatePhase.Sound ⟨fields.inputStreamId, input, phase⟩ ∧ phase.ordinalFits ∧
      writtenFields ⟨fields.inputStreamId, input, phase⟩ = fields := by
  have idled (code : Int) (coded : fields.phase = code) (guarded : (input.isSome && fields.idle) = true) :
      input.isSome = true ∧ fields = ⟨code, fields.inputStreamId, input.map StoredPosition.chunkSeq,
        input.map StoredPosition.rowOrdinal, none, none, none, none, none, none⟩ := by
    obtain ⟨present, bare⟩ := Bool.and_eq_true_iff.mp guarded
    refine ⟨present, ?_⟩
    rw [← coded, ← chunked, ← rowed]
    exact (idle_fields fields).mp bare
  unfold decodePhase at ok
  by_cases applied : fields.phase = applyPhase
  · rw [if_pos applied] at ok
    split at ok
    · rename_i guarded
      obtain rfl := Except.ok.inj ok
      obtain ⟨present, same⟩ := idled _ applied guarded
      exact ⟨present, trivial, same.symm⟩
    · cases ok
  rw [if_neg applied] at ok
  by_cases closed : fields.phase = frontierPhase
  · rw [if_pos closed] at ok
    split at ok
    · rename_i guarded
      obtain rfl := Except.ok.inj ok
      obtain ⟨present, same⟩ := idled _ closed guarded
      exact ⟨present, trivial, same.symm⟩
    · cases ok
  rw [if_neg closed] at ok
  by_cases rebuilds : fields.phase = drainRebuildPhase
  · rw [if_pos rebuilds] at ok
    split at ok
    · rename_i groupQueueId integer grouped ordinaled legless
      obtain ⟨ordinal, read, ok⟩ := bind_ok_iff.mp ok
      obtain ⟨after, target, ok⟩ := bind_ok_iff.mp ok
      obtain rfl := Except.ok.inj ok
      obtain ⟨fits, rfl⟩ := (ordinal_of _ _ _).mp read
      obtain ⟨valid, coded, afterChunk, afterRow⟩ := (decode_after_drain _ _).mp target
      refine ⟨⟨rfl, fits, valid⟩, fits, ?_⟩
      obtain ⟨_, _, _, _, _, _, _, _, _, _⟩ := fields
      simp only at *
      subst_vars
      rfl
    · cases ok
  rw [if_neg rebuilds] at ok
  by_cases emits : fields.phase = drainEmitPhase
  · rw [if_pos emits] at ok
    split at ok
    · rename_i groupQueueId code grouped ordinaled legged
      obtain ⟨leg, read, ok⟩ := bind_ok_iff.mp ok
      obtain ⟨after, target, ok⟩ := bind_ok_iff.mp ok
      obtain rfl := Except.ok.inj ok
      obtain rfl := (leg_from_code _ _).mp read
      obtain ⟨valid, coded, afterChunk, afterRow⟩ := (decode_after_drain _ _).mp target
      refine ⟨⟨rfl, valid⟩, trivial, ?_⟩
      obtain ⟨_, _, _, _, _, _, _, _, _, _⟩ := fields
      simp only at *
      subst_vars
      rfl
    · cases ok
  rw [if_neg emits] at ok
  cases ok

theorem decode_phase_written (sound : AggregatePhase.Sound continuation) :
    decodePhase (writtenFields continuation) continuation.input = .ok continuation.phase := by
  obtain ⟨streamId, input, phase⟩ := continuation
  cases phase with
  | apply | frontier =>
      have present : input.isSome = true := sound
      change (if (input.isSome && true) = true then _ else _) = _
      rw [present]
      rfl
  | drainRebuild groupQueueId aggregateOrdinal after =>
      obtain ⟨rfl, fits, valid⟩ := sound
      refine bind_ok_iff.mpr ⟨aggregateOrdinal, (ordinal_of _ _ _).mpr ⟨fits, rfl⟩, ?_⟩
      exact bind_ok_iff.mpr ⟨after, (decode_after_drain _ _).mpr ⟨valid, rfl, rfl, rfl⟩, rfl⟩
  | drainEmit groupQueueId leg after =>
      obtain ⟨rfl, valid⟩ := sound
      refine bind_ok_iff.mpr ⟨leg, (leg_from_code _ _).mpr rfl, ?_⟩
      exact bind_ok_iff.mpr ⟨after, (decode_after_drain _ _).mpr ⟨valid, rfl, rfl, rfl⟩, rfl⟩

theorem written_head :
    (writtenFields continuation).inputStreamId = continuation.inputStreamId ∧
      (writtenFields continuation).inputChunkSeq = continuation.input.map StoredPosition.chunkSeq ∧
      (writtenFields continuation).inputRowOrdinal = continuation.input.map StoredPosition.rowOrdinal := by
  obtain ⟨streamId, input, phase⟩ := continuation
  cases phase <;> exact ⟨rfl, rfl, rfl⟩

theorem decode_execute :
    decodeExecuteFields fields = .ok continuation ↔ continuation.Sound ∧ encodeExecuteFields continuation = .ok fields := by
  constructor
  · intro ok
    obtain ⟨input, inputRead, ok⟩ := bind_ok_iff.mp ok
    obtain ⟨phase, phaseRead, ok⟩ := bind_ok_iff.mp ok
    obtain rfl := Except.ok.inj ok
    obtain ⟨valid, chunked, rowed⟩ := (decode_position _ _ _ _ _).mp inputRead
    obtain ⟨sound, fits, same⟩ := decode_phase_inv fields input phase chunked rowed phaseRead
    exact ⟨⟨valid, sound⟩, (encode_written _ _).mpr ⟨fits, same⟩⟩
  · intro ⟨sound, encoded⟩
    obtain ⟨_, rfl⟩ := (encode_written _ _).mp encoded
    obtain ⟨streamed, chunked, rowed⟩ := written_head continuation
    refine bind_ok_iff.mpr ⟨continuation.input, (decode_position _ _ _ _ _).mpr ⟨?_, chunked, rowed⟩, ?_⟩
    · rw [streamed]
      exact sound.input
    · refine bind_ok_iff.mpr ⟨continuation.phase, decode_phase_written continuation sound.phase, ?_⟩
      rw [streamed]
      rfl

end

theorem read_aggregate (row : List Datum) (fields : AggregateFields) :
    readAggregateFields row = .ok fields ↔ row = aggregateFieldArguments fields := by
  constructor
  · intro ok
    unfold readAggregateFields at ok
    split at ok
    · obtain ⟨_, phase, ok⟩ := bind_ok_iff.mp ok
      obtain ⟨_, stream, ok⟩ := bind_ok_iff.mp ok
      obtain ⟨_, chunk, ok⟩ := bind_ok_iff.mp ok
      obtain ⟨_, ordinal, ok⟩ := bind_ok_iff.mp ok
      obtain ⟨_, grouped, ok⟩ := bind_ok_iff.mp ok
      obtain ⟨_, aggregate, ok⟩ := bind_ok_iff.mp ok
      obtain ⟨_, leg, ok⟩ := bind_ok_iff.mp ok
      obtain ⟨_, kind, ok⟩ := bind_ok_iff.mp ok
      obtain ⟨_, afterChunk, ok⟩ := bind_ok_iff.mp ok
      obtain ⟨_, afterRow, ok⟩ := bind_ok_iff.mp ok
      obtain rfl := Except.ok.inj ok
      rw [(get_smallint_required _ _ _).mp phase, (get_bigint_required _ _ _).mp stream, (get_bigint _ _).mp chunk,
        (get_bigint _ _).mp ordinal, (get_bigint _ _).mp grouped, (get_integer _ _).mp aggregate, (get_smallint _ _).mp leg,
        (get_smallint _ _).mp kind, (get_bigint _ _).mp afterChunk, (get_bigint _ _).mp afterRow]
      rfl
    · cases ok
  · intro same
    subst same
    simp only [readAggregateFields, aggregateFieldArguments, get_required_smallint, get_required_bigint, get_bigint_of,
      get_integer_of, get_smallint_of, ok_bind]
    rfl

theorem aggregate_cast (fields : AggregateFields) :
    castParameters aggregateCodec.fields (aggregateFieldArguments fields) = .ok (aggregateFieldArguments fields) := by
  simp only [aggregateFieldArguments, ContinuationCodec.fields, aggregateCodec, continuationColumns, List.drop_one,
    List.tail_cons, castParameters]
  rfl

theorem aggregate_lawful : aggregateCodec.Lawful AggregateContinuation.Sound (fun _ => True) := by
  constructor
  · exact List.cons_ne_nil _ _
  · intro fields continuation _
    exact decode_execute fields continuation
  · intro continuation sound
    have fits : continuation.phase.ordinalFits := by
      have sound := sound.phase
      obtain ⟨streamId, input, phase⟩ := continuation
      cases phase with
      | drainRebuild _ _ _ => exact sound.2.1
      | apply => trivial
      | drainEmit _ _ _ => trivial
      | frontier => trivial
    exact ⟨_, (encode_written continuation _).mpr ⟨fits, rfl⟩, trivial⟩
  · intro _ _ _ _
    trivial
  · intro fields
    rfl
  · intro continuation fields _ _
    refine ⟨aggregateFieldArguments fields, aggregate_cast fields, ?_, ?_, fun other _ => read_aggregate other fields⟩
    · simp only [aggregateCodec, aggregateFieldArguments, ContinuationCodec.fields, continuationColumns, List.drop_one,
        List.tail_cons, admitsAll, admits_of_bigint, admits_of_integer, admits_of_smallint]
      rfl
    · simp only [aggregateFieldArguments, List.forall_mem_cons, whole_of_bigint, whole_of_integer, whole_of_smallint, true_and]
      exact ⟨trivial, trivial, fun _ wrong => (by cases wrong)⟩

-- What transitions make of a continuation that the machine starts on.
inductive Produced (machine : AggregateMachine) : AggregateContinuation → Prop where
  | start (continuation : AggregateContinuation) (valid : machine.validateContinuation continuation = .ok ()) :
      Produced machine continuation
  | next (before after : AggregateContinuation) (result : AggregateActionResult) (budget : WorkBudget) (facts : PrimitiveFacts)
      (previous : Produced machine before) (taken : machine.apply before result budget = .ok ⟨some after, facts⟩) :
      Produced machine after

theorem input_checked {input : InputPosition} {streamId : Int} (placed : validateInput input = .ok ())
    (stream : input.streamId = streamId) : input.Valid streamId := by
  have inside := refuse_ok.mp placed
  simp only [Bool.or_eq_false_iff, decide_eq_false_iff_not, not_le, not_lt] at inside
  subst stream
  exact ⟨rfl, inside.1.1, inside.1.2, inside.2⟩

theorem after_checked {streamId : Int} {after : AfterDrain} (checked : validateAfterDrain streamId after = .ok ()) :
    after.Valid streamId := by
  obtain ⟨_, checked⟩ := refuse_bind_ok.mp checked
  cases after with
  | idle => exact ⟨fun _ wrong => (by cases wrong), fun _ wrong => (by cases wrong)⟩
  | apply input =>
      obtain ⟨_, placed, stream⟩ := bind_ok_iff.mp checked
      refine ⟨?_, fun _ wrong => (by cases wrong)⟩
      intro position same
      obtain rfl := Option.some.inj same
      exact input_checked placed (by simpa using refuse_ok.mp stream)
  | frontier input =>
      obtain ⟨_, placed, stream⟩ := bind_ok_iff.mp checked
      obtain ⟨stream, first⟩ := Bool.or_eq_false_iff.mp (refuse_ok.mp stream)
      constructor
      · intro position same
        obtain rfl := Option.some.inj same
        exact input_checked placed (by simpa using stream)
      · intro position same
        obtain rfl := AfterDrain.frontier.inj same
        simpa using first

section Produced

variable (machine : AggregateMachine)

variable (continuation before : AggregateContinuation)

theorem validated_sound (valid : machine.validateContinuation continuation = .ok ()) (fits : continuation.phase.ordinalFits) :
    continuation.Sound := by
  obtain ⟨streamId, input, phase⟩ := continuation
  obtain ⟨streamed, valid⟩ := refuse_bind_ok.mp valid
  obtain ⟨_, kept⟩ := Bool.or_eq_false_iff.mp streamed
  have carried (position : InputPosition) (same : input = some position) (placed : validateInput position = .ok ()) :
      AggregateContinuation.Sound ⟨streamId, some position, .apply⟩ := by
    subst same
    refine ⟨?_, rfl⟩
    intro other listed
    obtain rfl := Option.some.inj listed
    exact input_checked placed (by simpa using kept)
  cases phase with
  | apply =>
      cases input with
      | none => cases valid
      | some position => exact carried position rfl valid
  | frontier =>
      cases input with
      | none => cases valid
      | some position =>
          obtain ⟨_, placed, _⟩ := bind_ok_iff.mp valid
          exact ⟨(carried position rfl placed).input, rfl⟩
  | drainRebuild groupQueueId aggregateOrdinal after =>
      have valid := past_check (past_check valid)
      obtain ⟨absent, valid⟩ := refuse_bind_ok.mp valid
      obtain rfl := Option.isNone_iff_eq_none.mp (Option.isSome_eq_false_iff.mp absent)
      exact ⟨fun _ wrong => (by cases wrong), rfl, fits, after_checked valid⟩
  | drainEmit groupQueueId leg after =>
      obtain ⟨_, _, valid⟩ := bind_ok_iff.mp valid
      obtain ⟨absent, valid⟩ := refuse_bind_ok.mp valid
      obtain rfl := Option.isNone_iff_eq_none.mp (Option.isSome_eq_false_iff.mp absent)
      exact ⟨fun _ wrong => (by cases wrong), rfl, after_checked valid⟩

-- A drain that goes on keeps its target.
theorem drained_valid (after : AfterDrain) (valid : machine.validateContinuation before = .ok ())
    (target : phaseAfterDrain before.phase = .ok after) :
    after.Valid before.inputStreamId := by
  obtain ⟨streamId, input, phase⟩ := before
  obtain ⟨_, valid⟩ := refuse_bind_ok.mp valid
  cases phase with
  | apply => cases target
  | frontier => cases target
  | drainRebuild groupQueueId aggregateOrdinal other =>
      obtain rfl := Except.ok.inj target
      have valid := past_check (past_check (past_check valid))
      exact after_checked valid
  | drainEmit groupQueueId leg other =>
      obtain rfl := Except.ok.inj target
      have valid := past_check (past_check valid)
      exact after_checked valid

theorem drained_sound (streamId : Int) (phase : AggregatePhase) (after : AfterDrain) (valid : after.Valid streamId)
    (drains : phaseAfterDrain phase = .ok after) (fits : phase.ordinalFits) :
    AggregateContinuation.Sound ⟨streamId, none, phase⟩ := by
  cases phase with
  | apply => cases drains
  | frontier => cases drains
  | drainRebuild groupQueueId aggregateOrdinal other =>
      obtain rfl := Except.ok.inj drains
      exact ⟨fun _ wrong => (by cases wrong), rfl, fits, valid⟩
  | drainEmit groupQueueId leg other =>
      obtain rfl := Except.ok.inj drains
      exact ⟨fun _ wrong => (by cases wrong), rfl, valid⟩

-- A global group that the frontier still has to bootstrap comes back to it.
theorem frontier_target (input : InputPosition) (acted : machine.action before = .ok (.forwardFrontier input)) :
    ∃ position, before.input = some position ∧ (AfterDrain.frontier position).Valid before.inputStreamId := by
  obtain ⟨streamId, placed, phase⟩ := before
  obtain ⟨_, valid, acted⟩ := bind_ok_iff.mp acted
  obtain ⟨streamed, valid⟩ := refuse_bind_ok.mp valid
  obtain ⟨_, kept⟩ := Bool.or_eq_false_iff.mp streamed
  cases phase with
  | apply =>
      cases placed with
      | none => cases acted
      | some _ => cases acted
  | drainRebuild _ _ _ => cases acted
  | drainEmit _ leg _ =>
      cases leg with
      | decide => cases acted
      | insertPending => cases acted
  | frontier =>
      cases placed with
      | none => cases acted
      | some position =>
          obtain ⟨_, checked, first⟩ := bind_ok_iff.mp valid
          refine ⟨position, rfl, ?_, ?_⟩
          · intro other same
            obtain rfl := Option.some.inj same
            exact input_checked checked (by simpa using kept)
          · intro other same
            obtain rfl := AfterDrain.frontier.inj same
            simpa using refuse_ok.mp first

theorem completed_sound {streamId completedQueueId : Int} {nextGroupQueueId : Option Int} {after : AfterDrain}
    {next : AggregateContinuation} (valid : after.Valid streamId)
    (ok : AggregateMachine.afterCompletedGroup streamId completedQueueId nextGroupQueueId after = .ok (some next)) :
    next.Sound := by
  cases nextGroupQueueId with
  | some nextQueueId =>
      have ok := past_check (past_check ok)
      obtain rfl := Option.some.inj (Except.ok.inj ok)
      exact drained_sound streamId _ after valid rfl (by decide : 1 < 2 ^ 31)
  | none =>
      cases after with
      | idle => cases ok
      | apply position | frontier position =>
          obtain rfl := Option.some.inj (Except.ok.inj ok)
          exact ⟨valid.1, rfl⟩

theorem transition_next {first : Option AggregateContinuation} {after : AggregateContinuation} {made facts : PrimitiveFacts}
    (same : (Except.ok ⟨first, made⟩ : Except Fault AggregateTransition) = .ok ⟨some after, facts⟩) : first = some after :=
  (AggregateTransition.mk.inj (Except.ok.inj same)).1

theorem apply_sound (after : AggregateContinuation) (result : AggregateActionResult) (budget : WorkBudget)
    (facts : PrimitiveFacts) (taken : machine.apply before result budget = .ok ⟨some after, facts⟩)
    (fits : after.phase.ordinalFits) : after.Sound := by
  obtain ⟨action, acted, taken⟩ := bind_ok_iff.mp taken
  obtain ⟨_, valid, _⟩ := bind_ok_iff.mp acted
  have drained (target : AfterDrain) := drained_valid machine before target valid
  cases action with
  | apply input =>
      cases result with
      | applied applied =>
          have taken := past_check (past_check (past_check taken))
          obtain ⟨appliedFacts, target⟩ := applied
          cases target with
          | continuing next | drain firstGroupQueueId target =>
              have taken := past_check (past_check taken)
              obtain ⟨_, checked, taken⟩ := bind_ok_iff.mp taken
              obtain rfl := Option.some.inj (transition_next taken)
              exact validated_sound machine _ checked fits
          | idle => cases taken
      | _ => cases taken
  | drainRebuild groupQueueId aggregateOrdinal =>
      cases result with
      | rebuilt rebuilt =>
          have taken := past_check (past_check (past_check (past_check (past_check (past_check taken)))))
          obtain ⟨target, kept, taken⟩ := bind_ok_iff.mp taken
          obtain rfl := Option.some.inj (transition_next taken)
          refine drained_sound before.inputStreamId _ target (drained target kept) ?_ fits
          split
          · rfl
          · split <;> rfl
      | _ => cases taken
  | prepareOutput groupQueueId =>
      cases result with
      | outputPrepared prepared =>
          cases prepared with
          | replacementRetracted preparedFacts =>
              have taken := past_check (past_check taken)
              obtain ⟨target, kept, taken⟩ := bind_ok_iff.mp taken
              obtain rfl := Option.some.inj (transition_next taken)
              exact drained_sound before.inputStreamId _ target (drained target kept) rfl fits
          | _ =>
              have taken := past_check (past_check taken)
              obtain ⟨target, kept, taken⟩ := bind_ok_iff.mp taken
              obtain ⟨next, completed, taken⟩ := bind_ok_iff.mp taken
              obtain rfl := transition_next taken
              exact completed_sound (drained target kept) completed
      | _ => cases taken
  | emitPending groupQueueId =>
      cases result with
      | pendingEmitted emitted =>
          have taken := past_check (past_check taken)
          obtain ⟨target, kept, taken⟩ := bind_ok_iff.mp taken
          obtain ⟨next, completed, taken⟩ := bind_ok_iff.mp taken
          obtain rfl := transition_next taken
          exact completed_sound (drained target kept) completed
      | _ => cases taken
  | forwardFrontier input =>
      cases result with
      | frontier forwarded =>
          cases forwarded with
          | forwarded frontierFacts =>
              have taken := past_check (past_check taken)
              cases taken
          | globalGroupQueued frontierFacts groupQueueId =>
              have taken := past_check (past_check (past_check (past_check taken)))
              obtain ⟨position, placed, target⟩ := frontier_target machine before input acted
              rw [placed] at taken
              obtain rfl := Option.some.inj (transition_next taken)
              exact drained_sound before.inputStreamId _ (.frontier position) target rfl fits
      | _ => cases taken

theorem produced_sound (produced : Produced machine continuation) (fits : continuation.phase.ordinalFits) :
    continuation.Sound := by
  cases produced with
  | start _ valid => exact validated_sound machine continuation valid fits
  | next before _ result budget facts previous taken => exact apply_sound machine before continuation result budget facts taken fits

end Produced

theorem aggregate_round_trips : aggregateCodec.RoundTrips (fun _ => True)
    (fun continuation => ∃ machine, Produced machine continuation) (fun continuation => continuation.phase.ordinalFits) := by
  apply ContinuationCodec.round_trips aggregate_lawful
  · intro continuation ⟨machine, produced⟩ fits
    exact produced_sound machine continuation produced fits
  · intro continuation fields encoded
    exact ((encode_written continuation fields).mp encoded).1

end Shiba.Aggregate
