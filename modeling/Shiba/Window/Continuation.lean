import Shiba.TopN.Continuation
import Shiba.Window.Machine

set_option autoImplicit false

namespace Shiba.Window

open Shiba.Execution
open Shiba.Sink (InputPosition)
open Shiba.TopN (DiffLeg storedPosition leg_from_code position_valid)

inductive WindowPhaseKind where
  | admitted
  | enumerate
  | peers
  | frames
  | foldAggregate
  | evaluate
  | diff
  | cleanup
  | frontier
deriving DecidableEq, Repr

def WindowPhaseKind.code : WindowPhaseKind → Int
  | .admitted => 1
  | .enumerate => 2
  | .peers => 3
  | .frames => 4
  | .foldAggregate => 5
  | .evaluate => 6
  | .diff => 7
  | .cleanup => 8
  | .frontier => 9

def WindowPhaseKind.fromCode (code : Int) : Except Fault WindowPhaseKind :=
  if code = 1 then .ok .admitted
  else if code = 2 then .ok .enumerate
  else if code = 3 then .ok .peers
  else if code = 4 then .ok .frames
  else if code = 5 then .ok .foldAggregate
  else if code = 6 then .ok .evaluate
  else if code = 7 then .ok .diff
  else if code = 8 then .ok .cleanup
  else if code = 9 then .ok .frontier
  else .error (.failed "unknown Window phase code")

-- A continuation over the identifiers that bigint columns hold, of either sign.
inductive StoredPhase where
  | admitted
  | enumerate (partitionQueueId : Int) (cursor : WindowCursor) (afterPartitions : StoredAfter)
  | peers (partitionQueueId : Int) (cursor : WindowCursor) (afterPartitions : StoredAfter)
  | frames (partitionQueueId : Int) (cursor : WindowCursor) (afterPartitions : StoredAfter)
  | foldAggregate (partitionQueueId : Int) (functionOrdinal : Nat) (cursor : WindowFoldCursor) (afterPartitions : StoredAfter)
  | evaluate (partitionQueueId : Int) (functionOrdinal : Nat) (cursor : WindowCursor) (afterPartitions : StoredAfter)
  | diff (partitionQueueId : Int) (leg : DiffLeg) (cursor : WindowDiffCursor) (afterPartitions : StoredAfter)
  | cleanup (partitionQueueId : Int) (cursor : WindowCleanupCursor) (afterPartitions : StoredAfter)
  | frontier
deriving DecidableEq, Repr

structure StoredContinuation where
  inputStreamId : Int
  input : Option StoredPosition
  phase : StoredPhase
deriving DecidableEq, Repr

structure WindowFields where
  phase : Int
  inputStreamId : Int
  inputChunkSeq : Option Int
  inputRowOrdinal : Option Int
  partitionQueueId : Option Int := none
  functionOrdinal : Option Int32 := none
  outputOrdinal : Option Int := none
  cursorRowId : Option Int := none
  foldReady : Bool := false
  cursorRepeat : Bool := false
  diffLeg : Option Int := none
  cleanupOrdinal : Option Int32 := none
  afterKind : Option Int := none
  afterChunkSeq : Option Int := none
  afterRowOrdinal : Option Int := none
deriving DecidableEq, Repr

def continuationColumns : List StoredColumn :=
  [.required "singleton" .boolean, .required "phase" .smallint, .required "input_stream_id" .bigint,
   .nullable "input_chunk_seq" .bigint, .nullable "input_row_ordinal" .bigint, .nullable "partition_queue_id" .bigint,
   .nullable "function_ordinal" .integer, .nullable "output_ordinal" .bigint, .nullable "cursor_row_id" .bigint,
   .required "fold_ready" .boolean, .required "cursor_repeat" .boolean, .nullable "diff_leg" .smallint,
   .nullable "cleanup_ordinal" .integer, .nullable "after_kind" .smallint, .nullable "after_chunk_seq" .bigint,
   .nullable "after_row_ordinal" .bigint]

def windowFieldArguments (fields : WindowFields) : List Datum :=
  [.smallint fields.phase, .bigint fields.inputStreamId, .ofBigint fields.inputChunkSeq, .ofBigint fields.inputRowOrdinal,
   .ofBigint fields.partitionQueueId, .ofInteger fields.functionOrdinal, .ofBigint fields.outputOrdinal,
   .ofBigint fields.cursorRowId, .boolean fields.foldReady, .boolean fields.cursorRepeat, .ofSmallint fields.diffLeg,
   .ofInteger fields.cleanupOrdinal, .ofSmallint fields.afterKind, .ofBigint fields.afterChunkSeq,
   .ofBigint fields.afterRowOrdinal]

-- load_window_continuation's row.
def readWindowFields : List Datum → Except Fault WindowFields
  | [phase, inputStreamId, inputChunkSeq, inputRowOrdinal, partitionQueueId, functionOrdinal, outputOrdinal, cursorRowId,
     foldReady, cursorRepeat, diffLeg, cleanupOrdinal, afterKind, afterChunkSeq, afterRowOrdinal] => do
      let phase ← getRequired (getSmallint phase) "Window phase returned NULL"
      let inputStreamId ← getRequired (getBigint inputStreamId) "Window input stream returned NULL"
      let inputChunkSeq ← getBigint inputChunkSeq
      let inputRowOrdinal ← getBigint inputRowOrdinal
      let partitionQueueId ← getBigint partitionQueueId
      let functionOrdinal ← getInteger functionOrdinal
      let outputOrdinal ← getBigint outputOrdinal
      let cursorRowId ← getBigint cursorRowId
      let foldReady ← getRequired (getBoolean foldReady) "Window Fold ready state returned NULL"
      let cursorRepeat ← getRequired (getBoolean cursorRepeat) "Window cursor repeat returned NULL"
      let diffLeg ← getSmallint diffLeg
      let cleanupOrdinal ← getInteger cleanupOrdinal
      let afterKind ← getSmallint afterKind
      let afterChunkSeq ← getBigint afterChunkSeq
      let afterRowOrdinal ← getBigint afterRowOrdinal
      return ⟨phase, inputStreamId, inputChunkSeq, inputRowOrdinal, partitionQueueId, functionOrdinal, outputOrdinal, cursorRowId,
        foldReady, cursorRepeat, diffLeg, cleanupOrdinal, afterKind, afterChunkSeq, afterRowOrdinal⟩
  | _ => mismatched

def WindowFields.queue (fields : WindowFields) : Except Fault Int :=
  omitted fields.partitionQueueId "Window continuation omitted its partition"

def WindowFields.after (fields : WindowFields) : Except Fault StoredAfter :=
  decodeAfter "Window continuation has an invalid partition target" fields.inputStreamId fields.afterKind fields.afterChunkSeq
    fields.afterRowOrdinal

def WindowFields.plain (fields : WindowFields) : Except Fault Unit :=
  refuse (fields.functionOrdinal.isSome || fields.outputOrdinal.isSome || fields.cursorRepeat || fields.diffLeg.isSome ||
      fields.cleanupOrdinal.isSome)
    "Window continuation contains another phase's fields"

def WindowFields.bare (fields : WindowFields) : Except Fault Unit :=
  refuse (fields.partitionQueueId.isSome || fields.functionOrdinal.isSome || fields.outputOrdinal.isSome ||
      fields.cursorRowId.isSome || fields.cursorRepeat || fields.diffLeg.isSome || fields.cleanupOrdinal.isSome ||
      fields.afterKind.isSome || fields.afterChunkSeq.isSome || fields.afterRowOrdinal.isSome)
    "Window idle phase contains work fields"

-- What FoldAggregate and Evaluate read first.
def WindowFields.function (fields : WindowFields) : Except Fault Nat := do
  refuse (fields.cursorRepeat || fields.diffLeg.isSome || fields.cleanupOrdinal.isSome)
    "Window function continuation contains another phase's fields"
  let ordinal ← omitted fields.functionOrdinal "Window function continuation omitted its ordinal"
  ordinalOf ordinal "Window function ordinal is negative"

-- Enumerate, Peers and Frames hold a partition and a cursor only.
def WindowFields.page (fields : WindowFields) (phase : Int → WindowCursor → StoredAfter → StoredPhase) :
    Except Fault StoredPhase := do
  fields.plain
  let partitionQueueId ← fields.queue
  let afterPartitions ← fields.after
  return phase partitionQueueId ⟨fields.cursorRowId⟩ afterPartitions

def decodePhase (kind : WindowPhaseKind) (fields : WindowFields) : Except Fault StoredPhase :=
  match kind with
  | .admitted => do
      fields.bare
      return .admitted
  | .frontier => do
      fields.bare
      return .frontier
  | .enumerate => fields.page .enumerate
  | .peers => fields.page .peers
  | .frames => fields.page .frames
  | .foldAggregate => do
      let functionOrdinal ← fields.function
      let partitionQueueId ← fields.queue
      let outputOrdinal ← omitted fields.outputOrdinal "Window aggregate fold omitted its output ordinal"
      let afterPartitions ← fields.after
      return .foldAggregate partitionQueueId functionOrdinal ⟨outputOrdinal, fields.cursorRowId, fields.foldReady⟩ afterPartitions
  | .evaluate => do
      let functionOrdinal ← fields.function
      refuse fields.outputOrdinal.isSome "Window native evaluation contains an output ordinal"
      let partitionQueueId ← fields.queue
      let afterPartitions ← fields.after
      return .evaluate partitionQueueId functionOrdinal ⟨fields.cursorRowId⟩ afterPartitions
  | .diff => do
      refuse (fields.functionOrdinal.isSome || fields.outputOrdinal.isSome || fields.cleanupOrdinal.isSome)
        "Window Diff continuation contains another phase's fields"
      let partitionQueueId ← fields.queue
      let leg ← DiffLeg.fromCode "Window Diff continuation has an invalid leg" fields.diffLeg
      let afterPartitions ← fields.after
      return .diff partitionQueueId leg ⟨fields.cursorRowId, fields.cursorRepeat⟩ afterPartitions
  | .cleanup => do
      refuse (fields.functionOrdinal.isSome || fields.outputOrdinal.isSome || fields.cursorRepeat || fields.diffLeg.isSome)
        "Window Cleanup continuation contains another phase's fields"
      let partitionQueueId ← fields.queue
      let cleanupOrdinal ← omitted fields.cleanupOrdinal "Window Cleanup continuation omitted its relation"
      let relationOrdinal ← ordinalOf cleanupOrdinal "Window cleanup ordinal is negative"
      let afterPartitions ← fields.after
      return .cleanup partitionQueueId ⟨relationOrdinal, ⟨fields.cursorRowId⟩⟩ afterPartitions

-- No phase is asked for an input cursor, nor refused one.
def decodeWindowFields (fields : WindowFields) : Except Fault StoredContinuation := do
  let input ← decodePosition "Window continuation has a partial input cursor" fields.inputStreamId fields.inputChunkSeq
    fields.inputRowOrdinal
  let code ← activePhaseCode fields.phase
  let kind ← WindowPhaseKind.fromCode code
  refuse (decide (kind ≠ .foldAggregate) && fields.foldReady) "non-Fold Window continuation contains ready state"
  let phase ← decodePhase kind fields
  return ⟨fields.inputStreamId, input, phase⟩

def StoredPhase.kind : StoredPhase → WindowPhaseKind
  | .admitted => .admitted
  | .enumerate _ _ _ => .enumerate
  | .peers _ _ _ => .peers
  | .frames _ _ _ => .frames
  | .foldAggregate _ _ _ _ => .foldAggregate
  | .evaluate _ _ _ _ => .evaluate
  | .diff _ _ _ _ => .diff
  | .cleanup _ _ _ => .cleanup
  | .frontier => .frontier

def encodeWindowAfter (fields : WindowFields) (after : StoredAfter) : WindowFields :=
  { fields with
    afterKind := some after.kind
    afterChunkSeq := after.position.map StoredPosition.chunkSeq
    afterRowOrdinal := after.position.map StoredPosition.rowOrdinal }

def encodeWindowFields (continuation : StoredContinuation) : Except Fault WindowFields :=
  let fields : WindowFields :=
    { phase := continuation.phase.kind.code
      inputStreamId := continuation.inputStreamId
      inputChunkSeq := continuation.input.map StoredPosition.chunkSeq
      inputRowOrdinal := continuation.input.map StoredPosition.rowOrdinal }
  match continuation.phase with
  | .admitted | .frontier => .ok fields
  | .enumerate partitionQueueId cursor after | .peers partitionQueueId cursor after | .frames partitionQueueId cursor after =>
      .ok (encodeWindowAfter { fields with partitionQueueId := some partitionQueueId, cursorRowId := cursor.rowId } after)
  | .foldAggregate partitionQueueId functionOrdinal cursor after => do
      let ordinal ← integerOf functionOrdinal "Window function exceeds i32"
      return encodeWindowAfter
        { fields with
          partitionQueueId := some partitionQueueId
          functionOrdinal := some ordinal
          outputOrdinal := some cursor.outputOrdinal
          cursorRowId := cursor.lastFrameOrdinal
          foldReady := cursor.readyToFinalize } after
  | .evaluate partitionQueueId functionOrdinal cursor after => do
      let ordinal ← integerOf functionOrdinal "Window function exceeds i32"
      return encodeWindowAfter
        { fields with
          partitionQueueId := some partitionQueueId
          functionOrdinal := some ordinal
          cursorRowId := cursor.rowId } after
  | .diff partitionQueueId leg cursor after =>
      .ok (encodeWindowAfter
        { fields with
          partitionQueueId := some partitionQueueId
          cursorRowId := cursor.rowId
          cursorRepeat := cursor.repeats
          diffLeg := some (TopN.DiffLeg.code leg) } after)
  | .cleanup partitionQueueId cursor after => do
      let ordinal ← integerOf cursor.relationOrdinal "Window cleanup ordinal exceeds i32"
      return encodeWindowAfter
        { fields with
          partitionQueueId := some partitionQueueId
          cleanupOrdinal := some ordinal
          cursorRowId := cursor.row.rowId } after

def windowCodec : ContinuationCodec WindowFields StoredContinuation where
  owner := "Window"
  columns := continuationColumns
  encode := encodeWindowFields
  decode := decodeWindowFields
  arguments := windowFieldArguments
  read := readWindowFields

theorem phase_kind_code (code : Int) (kind : WindowPhaseKind) : WindowPhaseKind.fromCode code = .ok kind ↔ code = kind.code := by
  constructor
  · intro ok
    unfold WindowPhaseKind.fromCode at ok
    repeat' split at ok
    all_goals first | cases ok; assumption | cases ok
  · intro same
    subst same
    cases kind <;> rfl

theorem active_kind (kind : WindowPhaseKind) : activePhaseCode kind.code = .ok kind.code := by
  cases kind <;> rfl

-- An ordinal beyond i32 has no column to be in.
def StoredPhase.ordinalFits : StoredPhase → Prop
  | .foldAggregate _ functionOrdinal _ _ | .evaluate _ functionOrdinal _ _ => functionOrdinal < 2 ^ 31
  | .cleanup _ cursor _ => cursor.relationOrdinal < 2 ^ 31
  | _ => True

def StoredPhase.after : StoredPhase → Option StoredAfter
  | .admitted | .frontier => none
  | .enumerate _ _ after | .peers _ _ after | .frames _ _ after | .foldAggregate _ _ _ after | .evaluate _ _ _ after
  | .diff _ _ _ after | .cleanup _ _ after => some after

-- What decoding makes.
structure StoredContinuation.Sound (continuation : StoredContinuation) : Prop where
  input : ∀ position, continuation.input = some position → position.Valid continuation.inputStreamId
  after : ∀ after, continuation.phase.after = some after → after.Valid continuation.inputStreamId
  ordinal : continuation.phase.ordinalFits

-- The fields of a continuation whose ordinals fit.
def writtenFields (continuation : StoredContinuation) : WindowFields :=
  let fields : WindowFields :=
    { phase := continuation.phase.kind.code
      inputStreamId := continuation.inputStreamId
      inputChunkSeq := continuation.input.map StoredPosition.chunkSeq
      inputRowOrdinal := continuation.input.map StoredPosition.rowOrdinal }
  match continuation.phase with
  | .admitted | .frontier => fields
  | .enumerate partitionQueueId cursor after | .peers partitionQueueId cursor after | .frames partitionQueueId cursor after =>
      encodeWindowAfter { fields with partitionQueueId := some partitionQueueId, cursorRowId := cursor.rowId } after
  | .foldAggregate partitionQueueId functionOrdinal cursor after =>
      encodeWindowAfter
        { fields with
          partitionQueueId := some partitionQueueId
          functionOrdinal := some (Int32.ofNat functionOrdinal)
          outputOrdinal := some cursor.outputOrdinal
          cursorRowId := cursor.lastFrameOrdinal
          foldReady := cursor.readyToFinalize } after
  | .evaluate partitionQueueId functionOrdinal cursor after =>
      encodeWindowAfter
        { fields with
          partitionQueueId := some partitionQueueId
          functionOrdinal := some (Int32.ofNat functionOrdinal)
          cursorRowId := cursor.rowId } after
  | .diff partitionQueueId leg cursor after =>
      encodeWindowAfter
        { fields with
          partitionQueueId := some partitionQueueId
          cursorRowId := cursor.rowId
          cursorRepeat := cursor.repeats
          diffLeg := some (TopN.DiffLeg.code leg) } after
  | .cleanup partitionQueueId cursor after =>
      encodeWindowAfter
        { fields with
          partitionQueueId := some partitionQueueId
          cleanupOrdinal := some (Int32.ofNat cursor.relationOrdinal)
          cursorRowId := cursor.row.rowId } after

theorem encode_written (continuation : StoredContinuation) (fields : WindowFields) :
    encodeWindowFields continuation = .ok fields ↔ continuation.phase.ordinalFits ∧ writtenFields continuation = fields := by
  have fitted (ordinal : Nat) (message : String) (make : Int32 → WindowFields) :
      (integerOf ordinal message >>= fun value => pure (make value)) = .ok fields ↔
        ordinal < 2 ^ 31 ∧ make (Int32.ofNat ordinal) = fields := by
    constructor
    · intro ok
      obtain ⟨value, read, same⟩ := bind_ok_iff.mp ok
      obtain ⟨fits, rfl⟩ := (integer_of _ _ _).mp read
      exact ⟨fits, Except.ok.inj same⟩
    · intro ⟨fits, same⟩
      exact bind_ok_iff.mpr ⟨_, (integer_of _ _ _).mpr ⟨fits, rfl⟩, congrArg Except.ok same⟩
  have plain (made : WindowFields) : (Except.ok made : Except Fault WindowFields) = .ok fields ↔ True ∧ made = fields := by
    simp
  obtain ⟨streamId, input, phase⟩ := continuation
  cases phase with
  | admitted => exact plain _
  | enumerate _ _ _ => exact plain _
  | peers _ _ _ => exact plain _
  | frames _ _ _ => exact plain _
  | foldAggregate _ functionOrdinal _ _ => exact fitted functionOrdinal _ _
  | evaluate _ functionOrdinal _ _ => exact fitted functionOrdinal _ _
  | diff _ _ _ _ => exact plain _
  | cleanup _ cursor _ => exact fitted cursor.relationOrdinal _ _
  | frontier => exact plain _

theorem absent {α : Type} (value : Option α) : value.isSome = false ↔ value = none := by
  cases value <;> simp

-- A field list is the one that a phase writes once each of its columns is.
theorem written_by_columns {fields other : WindowFields} (phase : fields.phase = other.phase)
    (stream : fields.inputStreamId = other.inputStreamId) (chunk : fields.inputChunkSeq = other.inputChunkSeq)
    (row : fields.inputRowOrdinal = other.inputRowOrdinal) (queue : fields.partitionQueueId = other.partitionQueueId)
    (function : fields.functionOrdinal = other.functionOrdinal) (output : fields.outputOrdinal = other.outputOrdinal)
    (cursor : fields.cursorRowId = other.cursorRowId) (ready : fields.foldReady = other.foldReady)
    (repeats : fields.cursorRepeat = other.cursorRepeat) (leg : fields.diffLeg = other.diffLeg)
    (cleanup : fields.cleanupOrdinal = other.cleanupOrdinal) (kind : fields.afterKind = other.afterKind)
    (afterChunk : fields.afterChunkSeq = other.afterChunkSeq) (afterRow : fields.afterRowOrdinal = other.afterRowOrdinal) :
    other = fields := by
  obtain ⟨_, _, _, _, _, _, _, _, _, _, _, _, _, _, _⟩ := fields
  obtain ⟨_, _, _, _, _, _, _, _, _, _, _, _, _, _, _⟩ := other
  simp only at *
  subst_vars
  rfl

section Phases

variable (fields : WindowFields) (input : Option StoredPosition) (kind : WindowPhaseKind) (phase : StoredPhase)

-- What decoding a phase shows of the fields.
structure Written : Prop where
  kind : phase.kind = kind
  ordinal : phase.ordinalFits
  after : ∀ after, phase.after = some after → after.Valid fields.inputStreamId
  same : writtenFields ⟨fields.inputStreamId, input, phase⟩ = fields

variable {fields input phase} (chunked : fields.inputChunkSeq = input.map StoredPosition.chunkSeq)
  (rowed : fields.inputRowOrdinal = input.map StoredPosition.rowOrdinal)

include chunked rowed

theorem page_written (make : Int → WindowCursor → StoredAfter → StoredPhase)
    (shape : make = .enumerate ∨ make = .peers ∨ make = .frames)
    (kinded : ∀ queue cursor after, (make queue cursor after).kind = kind) (phased : fields.phase = kind.code)
    (ready : fields.foldReady = false) (ok : fields.page make = .ok phase) : Written fields input kind phase := by
  obtain ⟨_, plain, ok⟩ := bind_ok_iff.mp ok
  obtain ⟨queue, queued, ok⟩ := bind_ok_iff.mp ok
  obtain ⟨after, target, ok⟩ := bind_ok_iff.mp ok
  obtain rfl := Except.ok.inj ok
  have plain := refuse_ok.mp plain
  simp only [Bool.or_eq_false_iff, absent] at plain
  obtain ⟨⟨⟨⟨function, output⟩, repeats⟩, leg⟩, cleanup⟩ := plain
  obtain ⟨valid, coded, afterChunk, afterRow⟩ := decode_after.mp target
  have queued := omitted_ok.mp queued
  obtain rfl := kinded queue ⟨fields.cursorRowId⟩ after
  rcases shape with rfl | rfl | rfl
  all_goals
    refine ⟨rfl, trivial, ?_, ?_⟩
    · intro other same
      obtain rfl := Option.some.inj same
      exact valid
    · exact written_by_columns phased rfl chunked rowed queued function output rfl ready repeats leg cleanup coded
        afterChunk afterRow

theorem bare_written (shape : phase = .admitted ∨ phase = .frontier) (kinded : fields.phase = phase.kind.code)
    (ready : fields.foldReady = false) (bare : fields.bare = .ok ()) : Written fields input phase.kind phase := by
  have bare := refuse_ok.mp bare
  simp only [Bool.or_eq_false_iff, absent] at bare
  obtain ⟨⟨⟨⟨⟨⟨⟨⟨⟨queue, function⟩, output⟩, cursor⟩, repeats⟩, leg⟩, cleanup⟩, kind⟩, afterChunk⟩, afterRow⟩ := bare
  rcases shape with rfl | rfl
  all_goals
    refine ⟨rfl, trivial, fun _ wrong => (by cases wrong), ?_⟩
    exact written_by_columns kinded rfl chunked rowed queue function output cursor ready repeats leg cleanup kind
      afterChunk afterRow

omit chunked rowed in
theorem function_read (ordinal : Nat) (ok : fields.function = .ok ordinal) :
    ordinal < 2 ^ 31 ∧ fields.functionOrdinal = some (Int32.ofNat ordinal) ∧ fields.cursorRepeat = false ∧
      fields.diffLeg = none ∧ fields.cleanupOrdinal = none := by
  obtain ⟨plain, ok⟩ := refuse_bind_ok.mp ok
  obtain ⟨integer, present, ok⟩ := bind_ok_iff.mp ok
  simp only [Bool.or_eq_false_iff, absent] at plain
  obtain ⟨⟨repeats, leg⟩, cleanup⟩ := plain
  obtain ⟨fits, rfl⟩ := (ordinal_of _ _ _).mp ok
  exact ⟨fits, omitted_ok.mp present, repeats, leg, cleanup⟩

-- By cases on the kind, each of which reads its own columns and refuses the
theorem phase_written (kinded : fields.phase = kind.code)
    (ready : (decide (kind ≠ .foldAggregate) && fields.foldReady) = false) (ok : decodePhase kind fields = .ok phase) :
    Written fields input kind phase := by
  cases kind with
  | admitted =>
      obtain ⟨_, bare, same⟩ := bind_ok_iff.mp ok
      obtain rfl := Except.ok.inj same
      exact bare_written chunked rowed (.inl rfl) kinded ready bare
  | frontier =>
      obtain ⟨_, bare, same⟩ := bind_ok_iff.mp ok
      obtain rfl := Except.ok.inj same
      exact bare_written chunked rowed (.inr rfl) kinded ready bare
  | enumerate => exact page_written _ chunked rowed _ (.inl rfl) (fun _ _ _ => rfl) kinded ready ok
  | peers => exact page_written _ chunked rowed _ (.inr (.inl rfl)) (fun _ _ _ => rfl) kinded ready ok
  | frames => exact page_written _ chunked rowed _ (.inr (.inr rfl)) (fun _ _ _ => rfl) kinded ready ok
  | foldAggregate =>
      obtain ⟨ordinal, read, ok⟩ := bind_ok_iff.mp ok
      obtain ⟨queue, queued, ok⟩ := bind_ok_iff.mp ok
      obtain ⟨outputOrdinal, outputRead, ok⟩ := bind_ok_iff.mp ok
      obtain ⟨after, target, ok⟩ := bind_ok_iff.mp ok
      obtain rfl := Except.ok.inj ok
      obtain ⟨fits, function, repeats, leg, cleanup⟩ := function_read ordinal read
      obtain ⟨valid, coded, afterChunk, afterRow⟩ := decode_after.mp target
      refine ⟨rfl, fits, ?_, ?_⟩
      · intro other same
        obtain rfl := Option.some.inj same
        exact valid
      · exact written_by_columns kinded rfl chunked rowed (omitted_ok.mp queued) function
          (omitted_ok.mp outputRead) rfl rfl repeats leg cleanup coded afterChunk afterRow
  | evaluate =>
      obtain ⟨ordinal, read, ok⟩ := bind_ok_iff.mp ok
      obtain ⟨output, ok⟩ := refuse_bind_ok.mp ok
      obtain ⟨queue, queued, ok⟩ := bind_ok_iff.mp ok
      obtain ⟨after, target, ok⟩ := bind_ok_iff.mp ok
      obtain rfl := Except.ok.inj ok
      obtain ⟨fits, function, repeats, leg, cleanup⟩ := function_read ordinal read
      obtain ⟨valid, coded, afterChunk, afterRow⟩ := decode_after.mp target
      refine ⟨rfl, fits, ?_, ?_⟩
      · intro other same
        obtain rfl := Option.some.inj same
        exact valid
      · exact written_by_columns kinded rfl chunked rowed (omitted_ok.mp queued) function
          ((absent _).mp output) rfl ready repeats leg cleanup coded afterChunk afterRow
  | diff =>
      obtain ⟨plain, ok⟩ := refuse_bind_ok.mp ok
      obtain ⟨queue, queued, ok⟩ := bind_ok_iff.mp ok
      obtain ⟨leg, legged, ok⟩ := bind_ok_iff.mp ok
      obtain ⟨after, target, ok⟩ := bind_ok_iff.mp ok
      obtain rfl := Except.ok.inj ok
      simp only [Bool.or_eq_false_iff, absent] at plain
      obtain ⟨⟨function, output⟩, cleanup⟩ := plain
      obtain ⟨valid, coded, afterChunk, afterRow⟩ := decode_after.mp target
      refine ⟨rfl, trivial, ?_, ?_⟩
      · intro other same
        obtain rfl := Option.some.inj same
        exact valid
      · exact written_by_columns kinded rfl chunked rowed (omitted_ok.mp queued) function output rfl ready rfl
          ((leg_from_code _ _ _).mp legged) cleanup coded afterChunk afterRow
  | cleanup =>
      obtain ⟨plain, ok⟩ := refuse_bind_ok.mp ok
      obtain ⟨queue, queued, ok⟩ := bind_ok_iff.mp ok
      obtain ⟨integer, present, ok⟩ := bind_ok_iff.mp ok
      obtain ⟨ordinal, read, ok⟩ := bind_ok_iff.mp ok
      obtain ⟨after, target, ok⟩ := bind_ok_iff.mp ok
      obtain rfl := Except.ok.inj ok
      simp only [Bool.or_eq_false_iff, absent] at plain
      obtain ⟨⟨⟨function, output⟩, repeats⟩, leg⟩ := plain
      obtain ⟨fits, rfl⟩ := (ordinal_of _ _ _).mp read
      obtain ⟨valid, coded, afterChunk, afterRow⟩ := decode_after.mp target
      refine ⟨rfl, fits, ?_, ?_⟩
      · intro other same
        obtain rfl := Option.some.inj same
        exact valid
      · exact written_by_columns kinded rfl chunked rowed (omitted_ok.mp queued) function output rfl ready
          repeats leg (omitted_ok.mp present) coded afterChunk afterRow

end Phases

section

variable (streamId : Nat) (fields : WindowFields) (continuation : StoredContinuation)

theorem written_head :
    (writtenFields continuation).phase = continuation.phase.kind.code ∧
      (writtenFields continuation).inputStreamId = continuation.inputStreamId ∧
      (writtenFields continuation).inputChunkSeq = continuation.input.map StoredPosition.chunkSeq ∧
      (writtenFields continuation).inputRowOrdinal = continuation.input.map StoredPosition.rowOrdinal ∧
      (decide (continuation.phase.kind ≠ .foldAggregate) && (writtenFields continuation).foldReady) = false := by
  obtain ⟨streamId, input, phase⟩ := continuation
  cases phase <;> exact ⟨rfl, rfl, rfl, rfl, rfl⟩

theorem decode_phase_written (sound : continuation.Sound) :
    decodePhase continuation.phase.kind (writtenFields continuation) = .ok continuation.phase := by
  obtain ⟨streamId, input, phase⟩ := continuation
  have fits := sound.ordinal
  have targeted (after : StoredAfter) (held : phase.after = some after) :
      decodeAfter "Window continuation has an invalid partition target" streamId (some after.kind)
        (after.position.map StoredPosition.chunkSeq) (after.position.map StoredPosition.rowOrdinal) = .ok after :=
    decode_after.mpr ⟨sound.after after held, rfl, rfl, rfl⟩
  cases phase with
  | admitted => rfl
  | frontier => rfl
  | enumerate queue cursor after | peers queue cursor after | frames queue cursor after =>
      refine bind_ok_iff.mpr ⟨(), rfl, ?_⟩
      refine bind_ok_iff.mpr ⟨queue, rfl, ?_⟩
      exact bind_ok_iff.mpr ⟨after, targeted after rfl, rfl⟩
  | foldAggregate queue functionOrdinal cursor after =>
      refine bind_ok_iff.mpr ⟨functionOrdinal, (ordinal_of _ _ _).mpr ⟨fits, rfl⟩, ?_⟩
      refine bind_ok_iff.mpr ⟨queue, rfl, ?_⟩
      refine bind_ok_iff.mpr ⟨cursor.outputOrdinal, rfl, ?_⟩
      exact bind_ok_iff.mpr ⟨after, targeted after rfl, rfl⟩
  | evaluate queue functionOrdinal cursor after =>
      refine bind_ok_iff.mpr ⟨functionOrdinal, (ordinal_of _ _ _).mpr ⟨fits, rfl⟩, ?_⟩
      refine bind_ok_iff.mpr ⟨(), rfl, ?_⟩
      refine bind_ok_iff.mpr ⟨queue, rfl, ?_⟩
      exact bind_ok_iff.mpr ⟨after, targeted after rfl, rfl⟩
  | diff queue leg cursor after =>
      refine bind_ok_iff.mpr ⟨(), rfl, ?_⟩
      refine bind_ok_iff.mpr ⟨queue, rfl, ?_⟩
      refine bind_ok_iff.mpr ⟨leg, (leg_from_code _ _ _).mpr rfl, ?_⟩
      exact bind_ok_iff.mpr ⟨after, targeted after rfl, rfl⟩
  | cleanup queue cursor after =>
      refine bind_ok_iff.mpr ⟨(), rfl, ?_⟩
      refine bind_ok_iff.mpr ⟨queue, rfl, ?_⟩
      refine bind_ok_iff.mpr ⟨Int32.ofNat cursor.relationOrdinal, rfl, ?_⟩
      refine bind_ok_iff.mpr ⟨cursor.relationOrdinal, (ordinal_of _ _ _).mpr ⟨fits, rfl⟩, ?_⟩
      exact bind_ok_iff.mpr ⟨after, targeted after rfl, rfl⟩

theorem decode_window :
    decodeWindowFields fields = .ok continuation ↔ continuation.Sound ∧ encodeWindowFields continuation = .ok fields := by
  constructor
  · intro ok
    obtain ⟨input, inputRead, ok⟩ := bind_ok_iff.mp ok
    obtain ⟨code, active, ok⟩ := bind_ok_iff.mp ok
    obtain ⟨kind, kinded, ok⟩ := bind_ok_iff.mp ok
    obtain ⟨ready, ok⟩ := refuse_bind_ok.mp ok
    obtain ⟨phase, phaseRead, ok⟩ := bind_ok_iff.mp ok
    obtain rfl := Except.ok.inj ok
    obtain ⟨_, same⟩ := refuse_bind_ok.mp active
    obtain rfl := Except.ok.inj same
    obtain ⟨valid, chunked, rowed⟩ := (decode_position _ _ _ _ _).mp inputRead
    have written := phase_written kind chunked rowed ((phase_kind_code _ _).mp kinded) ready phaseRead
    exact ⟨⟨valid, written.after, written.ordinal⟩, (encode_written _ _).mpr ⟨written.ordinal, written.same⟩⟩
  · intro ⟨sound, encoded⟩
    obtain ⟨_, rfl⟩ := (encode_written _ _).mp encoded
    obtain ⟨phased, streamed, chunked, rowed, ready⟩ := written_head continuation
    refine bind_ok_iff.mpr ⟨continuation.input, (decode_position _ _ _ _ _).mpr ⟨?_, chunked, rowed⟩, ?_⟩
    · rw [streamed]
      exact sound.input
    · refine bind_ok_iff.mpr ⟨continuation.phase.kind.code, ?_, ?_⟩
      · rw [phased]
        exact active_kind _
      · refine bind_ok_iff.mpr ⟨continuation.phase.kind, (phase_kind_code _ _).mpr rfl, ?_⟩
        refine refuse_bind_ok.mpr ⟨ready, ?_⟩
        refine bind_ok_iff.mpr ⟨continuation.phase, decode_phase_written continuation sound, ?_⟩
        rw [streamed]
        rfl

theorem read_window (row : List Datum) (fields : WindowFields) :
    readWindowFields row = .ok fields ↔ row = windowFieldArguments fields := by
  constructor
  · intro ok
    unfold readWindowFields at ok
    split at ok
    · obtain ⟨_, phase, ok⟩ := bind_ok_iff.mp ok
      obtain ⟨_, stream, ok⟩ := bind_ok_iff.mp ok
      obtain ⟨_, chunk, ok⟩ := bind_ok_iff.mp ok
      obtain ⟨_, ordinal, ok⟩ := bind_ok_iff.mp ok
      obtain ⟨_, queue, ok⟩ := bind_ok_iff.mp ok
      obtain ⟨_, function, ok⟩ := bind_ok_iff.mp ok
      obtain ⟨_, output, ok⟩ := bind_ok_iff.mp ok
      obtain ⟨_, cursor, ok⟩ := bind_ok_iff.mp ok
      obtain ⟨_, ready, ok⟩ := bind_ok_iff.mp ok
      obtain ⟨_, repeats, ok⟩ := bind_ok_iff.mp ok
      obtain ⟨_, leg, ok⟩ := bind_ok_iff.mp ok
      obtain ⟨_, cleanup, ok⟩ := bind_ok_iff.mp ok
      obtain ⟨_, kind, ok⟩ := bind_ok_iff.mp ok
      obtain ⟨_, afterChunk, ok⟩ := bind_ok_iff.mp ok
      obtain ⟨_, afterRow, ok⟩ := bind_ok_iff.mp ok
      obtain rfl := Except.ok.inj ok
      rw [(get_smallint_required _ _ _).mp phase, (get_bigint_required _ _ _).mp stream, (get_bigint _ _).mp chunk,
        (get_bigint _ _).mp ordinal, (get_bigint _ _).mp queue, (get_integer _ _).mp function, (get_bigint _ _).mp output,
        (get_bigint _ _).mp cursor, (get_boolean_required _ _ _).mp ready, (get_boolean_required _ _ _).mp repeats,
        (get_smallint _ _).mp leg, (get_integer _ _).mp cleanup, (get_smallint _ _).mp kind, (get_bigint _ _).mp afterChunk,
        (get_bigint _ _).mp afterRow]
      rfl
    · cases ok
  · intro same
    subst same
    simp only [readWindowFields, windowFieldArguments, get_required_smallint, get_required_bigint, get_required_boolean,
      get_bigint_of, get_integer_of, get_smallint_of, ok_bind]
    rfl

theorem window_cast :
    castParameters windowCodec.fields (windowFieldArguments fields) = .ok (windowFieldArguments fields) := by
  simp only [windowFieldArguments, ContinuationCodec.fields, windowCodec, continuationColumns, List.drop_one, List.tail_cons,
    castParameters]
  rfl

theorem window_lawful : windowCodec.Lawful StoredContinuation.Sound (fun _ => True) := by
  constructor
  · exact List.cons_ne_nil _ _
  · intro fields continuation _
    exact decode_window fields continuation
  · intro continuation sound
    exact ⟨_, (encode_written continuation _).mpr ⟨sound.ordinal, rfl⟩, trivial⟩
  · intro _ _ _ _
    trivial
  · intro fields
    rfl
  · intro continuation fields _ _
    refine ⟨windowFieldArguments fields, window_cast fields, ?_, ?_, fun other _ => read_window other fields⟩
    · simp only [windowCodec, windowFieldArguments, ContinuationCodec.fields, continuationColumns, List.drop_one,
        List.tail_cons, admitsAll, admits_of_bigint, admits_of_integer, admits_of_smallint]
      rfl
    · simp only [windowFieldArguments, List.forall_mem_cons, whole_of_bigint, whole_of_integer, whole_of_smallint, true_and]
      exact ⟨trivial, trivial, trivial, trivial, fun _ wrong => (by cases wrong)⟩

def AfterPartitions.stored : AfterPartitions → StoredAfter
  | .admitted next => .resumes (storedPosition next)
  | .finishInput => .finishes
  | .frontier position => .frontier (storedPosition position)

def WindowPhase.stored : WindowPhase → StoredPhase
  | .admitted => .admitted
  | .enumerate partitionQueueId cursor after => .enumerate partitionQueueId cursor after.stored
  | .peers partitionQueueId cursor after => .peers partitionQueueId cursor after.stored
  | .frames partitionQueueId cursor after => .frames partitionQueueId cursor after.stored
  | .foldAggregate partitionQueueId functionOrdinal cursor after =>
      .foldAggregate partitionQueueId functionOrdinal cursor after.stored
  | .evaluate partitionQueueId functionOrdinal cursor after => .evaluate partitionQueueId functionOrdinal cursor after.stored
  | .diff partitionQueueId leg cursor after => .diff partitionQueueId leg cursor after.stored
  | .cleanup partitionQueueId cursor after => .cleanup partitionQueueId cursor after.stored
  | .frontier => .frontier

-- The machine's own continuation, with its identifiers as columns hold them.
def WindowContinuation.stored (continuation : WindowContinuation) : StoredContinuation :=
  ⟨continuation.inputStreamId, continuation.input.map storedPosition, continuation.phase.stored⟩

-- What transitions make of a continuation that the machine starts on.
inductive Produced (machine : WindowMachine) : WindowContinuation → Prop where
  | start (continuation : WindowContinuation) (valid : machine.validateContinuation continuation = .ok ()) :
      Produced machine continuation
  | next (before after : WindowContinuation) (result : WindowActionResult) (budget : WorkBudget) (facts : PrimitiveFacts)
      (previous : Produced machine before) (taken : machine.apply before result budget = .ok ⟨some after, facts⟩) :
      Produced machine after

theorem after_valid (after : AfterPartitions) (valid : validateAfterPartitions streamId after = .ok ()) :
    after.stored.Valid streamId := by
  obtain ⟨_, valid⟩ := refuse_bind_ok.mp valid
  intro position listed
  cases after with
  | finishInput => cases listed
  | admitted next =>
      obtain rfl := Option.some.inj listed
      obtain ⟨_, placed, stream⟩ := bind_ok_iff.mp valid
      exact position_valid next streamId placed (by simpa using refuse_ok.mp stream)
  | frontier frontier =>
      obtain rfl := Option.some.inj listed
      obtain ⟨_, placed, stream⟩ := bind_ok_iff.mp valid
      have kept := (Bool.or_eq_false_iff.mp (refuse_ok.mp stream)).1
      exact position_valid frontier streamId placed (by simpa using kept)

theorem drain_checked {continuation : WindowContinuation} {after : AfterPartitions}
    (valid : WindowMachine.validateDrain continuation after = .ok ()) :
    continuation.input = none ∧ after.stored.Valid continuation.inputStreamId := by
  obtain ⟨bare, valid⟩ := refuse_bind_ok.mp valid
  exact ⟨(absent _).mp bare, after_valid _ after valid⟩

theorem drained_sound (phase : WindowPhase) (after : AfterPartitions) (valid : after.stored.Valid streamId)
    (drains : phaseAfterPartitions phase = .ok after) (fits : phase.stored.ordinalFits) :
    StoredContinuation.Sound ⟨streamId, none, phase.stored⟩ := by
  refine ⟨fun _ wrong => (by cases wrong), ?_, fits⟩
  intro other held
  cases phase with
  | admitted => cases drains
  | frontier => cases drains
  | _ =>
      obtain rfl := Except.ok.inj drains
      obtain rfl := Option.some.inj held
      exact valid

end

theorem transition_next {first : Option WindowContinuation} {after : WindowContinuation} {made facts : PrimitiveFacts}
    (same : (Except.ok ⟨first, made⟩ : Except Fault WindowTransition) = .ok ⟨some after, facts⟩) : first = some after :=
  (WindowTransition.mk.inj (Except.ok.inj same)).1

section Produced

variable (machine : WindowMachine)

variable {before : WindowContinuation} {page : WindowPage} {cursor : WindowCursor} (continuation : WindowContinuation)
  {after : AfterPartitions} {functionOrdinal queue : Nat} {budget : WorkBudget} {facts : PrimitiveFacts}

-- Every phase of a drain ends with the same checks.
theorem validated_drain {continuation : WindowContinuation} (valid : machine.validateContinuation continuation = .ok ())
    (drains : phaseAfterPartitions continuation.phase = .ok after) :
    continuation.input = none ∧ after.stored.Valid continuation.inputStreamId := by
  obtain ⟨streamId, input, phase⟩ := continuation
  obtain ⟨_, valid⟩ := refuse_bind_ok.mp valid
  cases phase with
  | admitted => cases drains
  | frontier => cases drains
  | foldAggregate queue functionOrdinal cursor other | evaluate queue functionOrdinal cursor other =>
      obtain rfl := Except.ok.inj drains
      obtain ⟨_, _, valid⟩ := bind_ok_iff.mp valid
      obtain ⟨_, _, valid⟩ := bind_ok_iff.mp valid
      obtain ⟨_, _, valid⟩ := bind_ok_iff.mp valid
      obtain ⟨_, _, valid⟩ := bind_ok_iff.mp valid
      exact drain_checked valid
  | cleanup queue cursor other =>
      obtain rfl := Except.ok.inj drains
      have valid := past_check (past_check (past_check valid))
      exact drain_checked valid
  | _ =>
      obtain rfl := Except.ok.inj drains
      have valid := past_check (past_check valid)
      exact drain_checked valid

theorem validated_sound (valid : machine.validateContinuation continuation = .ok ())
    (fits : continuation.phase.stored.ordinalFits) : continuation.stored.Sound := by
  cases drains : phaseAfterPartitions continuation.phase with
  | ok after =>
      obtain ⟨bare, checked⟩ := validated_drain machine valid drains
      have sound := drained_sound continuation.inputStreamId continuation.phase after checked drains fits
      unfold WindowContinuation.stored
      rw [bare]
      exact sound
  | error fault =>
      obtain ⟨streamId, input, phase⟩ := continuation
      obtain ⟨streamed, valid⟩ := refuse_bind_ok.mp valid
      obtain ⟨_, kept⟩ := Bool.or_eq_false_iff.mp streamed
      have carried (checked : ∀ position, input = some position → validateInput position = .ok ()) :
          ∀ position, input.map storedPosition = some position → position.Valid streamId := by
        intro position same
        cases input with
        | none => cases same
        | some input =>
            obtain rfl := Option.some.inj same
            exact position_valid input streamId (checked input rfl) (by simpa using kept)
      cases phase with
      | admitted | frontier =>
          refine ⟨carried ?_, fun _ wrong => (by cases wrong), trivial⟩
          intro position same
          subst same
          exact valid
      | _ => cases drains

theorem first_function_drains {phase : WindowPhase} (ok : machine.firstFunctionPhase queue functionOrdinal after = .ok phase) :
    phaseAfterPartitions phase = .ok after := by
  obtain ⟨kind, _, ok⟩ := bind_ok_iff.mp ok
  cases kind with
  | native | aggregate =>
      obtain rfl := Except.ok.inj ok
      rfl

theorem after_function_drains {phase : WindowPhase} (ok : machine.afterFunction queue functionOrdinal after = .ok phase) :
    phaseAfterPartitions phase = .ok after := by
  unfold WindowMachine.afterFunction at ok
  split at ok
  · exact first_function_drains machine ok
  · obtain rfl := Except.ok.inj ok
    rfl

section

variable {after : WindowContinuation} (valid : machine.validateContinuation before = .ok ())

include valid

theorem internal_page_sound {stage : WindowInternalStage}
    (taken : machine.applyInternalPage before queue cursor page stage budget = .ok ⟨some after, facts⟩)
    (fits : after.phase.stored.ordinalFits) : after.stored.Sound := by
  obtain ⟨_, _, taken⟩ := bind_ok_iff.mp taken
  obtain ⟨target, kept, taken⟩ := bind_ok_iff.mp taken
  have kept := (validated_drain machine valid kept).2
  by_cases complete : page.complete = true
  · simp only [complete, Bool.not_true, Bool.false_eq_true, if_false] at taken
    cases stage with
    | enumerate | peers =>
        obtain rfl := Option.some.inj (transition_next taken)
        exact drained_sound before.inputStreamId _ target kept rfl fits
    | frames =>
        obtain ⟨phase, phased, taken⟩ := bind_ok_iff.mp taken
        obtain rfl := Option.some.inj (transition_next taken)
        exact drained_sound before.inputStreamId phase target kept (first_function_drains machine phased) fits
  · rw [Bool.not_eq_true] at complete
    simp only [complete, Bool.not_false, if_true] at taken
    obtain rfl := Option.some.inj (transition_next taken)
    refine drained_sound before.inputStreamId _ target kept ?_ fits
    cases stage <;> rfl

theorem fold_sound {cursor : WindowFoldCursor} {page : WindowFoldPage}
    (taken : machine.applyAggregateFold before queue functionOrdinal cursor page budget = .ok ⟨some after, facts⟩)
    (fits : after.phase.stored.ordinalFits) : after.stored.Sound := by
  obtain ⟨_, _, taken⟩ := bind_ok_iff.mp taken
  obtain ⟨target, kept, taken⟩ := bind_ok_iff.mp taken
  have kept := (validated_drain machine valid kept).2
  cases folded : page.nextCursor with
  | some next =>
      rw [folded] at taken
      obtain rfl := Option.some.inj (transition_next taken)
      exact drained_sound before.inputStreamId _ target kept rfl fits
  | none =>
      rw [folded] at taken
      obtain ⟨phase, phased, taken⟩ := bind_ok_iff.mp taken
      obtain rfl := Option.some.inj (transition_next taken)
      exact drained_sound before.inputStreamId phase target kept (after_function_drains machine phased) fits

theorem evaluation_sound
    (taken : machine.applyEvaluation before queue functionOrdinal cursor page budget = .ok ⟨some after, facts⟩)
    (fits : after.phase.stored.ordinalFits) : after.stored.Sound := by
  obtain ⟨_, _, taken⟩ := bind_ok_iff.mp taken
  obtain ⟨target, kept, taken⟩ := bind_ok_iff.mp taken
  have kept := (validated_drain machine valid kept).2
  by_cases complete : page.complete = true
  · simp only [complete, Bool.not_true, Bool.false_eq_true, if_false] at taken
    obtain ⟨phase, phased, taken⟩ := bind_ok_iff.mp taken
    obtain rfl := Option.some.inj (transition_next taken)
    exact drained_sound before.inputStreamId phase target kept (after_function_drains machine phased) fits
  · rw [Bool.not_eq_true] at complete
    simp only [complete, Bool.not_false, if_true] at taken
    obtain rfl := Option.some.inj (transition_next taken)
    exact drained_sound before.inputStreamId _ target kept rfl fits

theorem diff_sound {leg : DiffLeg} {cursor : WindowDiffCursor} {page : WindowDiffPage}
    (taken : WindowMachine.applyDiff before queue leg cursor page budget = .ok ⟨some after, facts⟩)
    (fits : after.phase.stored.ordinalFits) : after.stored.Sound := by
  obtain ⟨_, _, taken⟩ := bind_ok_iff.mp taken
  obtain ⟨target, kept, taken⟩ := bind_ok_iff.mp taken
  have kept := (validated_drain machine valid kept).2
  obtain rfl := Option.some.inj (transition_next taken)
  refine drained_sound before.inputStreamId _ target kept ?_ fits
  split
  · rfl
  · cases leg <;> rfl

theorem cleanup_sound {cursor : WindowCleanupCursor} {cleaned : WindowCleanup}
    (taken : WindowMachine.applyCleanup before queue cursor cleaned budget = .ok ⟨some after, facts⟩)
    (fits : after.phase.stored.ordinalFits) : after.stored.Sound := by
  obtain ⟨_, _, taken⟩ := bind_ok_iff.mp taken
  obtain ⟨target, kept, taken⟩ := bind_ok_iff.mp taken
  have kept := (validated_drain machine valid kept).2
  obtain ⟨_, taken⟩ := refuse_bind_ok.mp taken
  by_cases complete : cleaned.page.complete = true
  · simp only [complete, Bool.not_true, Bool.false_eq_true, if_false] at taken
    by_cases further : cursor.relationOrdinal + 1 < cleanupRelationCount
    · rw [if_pos further] at taken
      obtain ⟨_, taken⟩ := refuse_bind_ok.mp taken
      obtain rfl := Option.some.inj (transition_next taken)
      exact drained_sound before.inputStreamId _ target kept rfl fits
    · rw [if_neg further] at taken
      cases queued : cleaned.nextPartitionQueueId with
      | some nextQueueId =>
          rw [queued] at taken
          have taken := past_check (past_check taken)
          obtain rfl := Option.some.inj (transition_next taken)
          exact drained_sound before.inputStreamId _ target kept rfl fits
      | none =>
          rw [queued] at taken
          cases target with
          | finishInput => cases taken
          | admitted next | frontier frontier =>
              obtain rfl := Option.some.inj (transition_next taken)
              refine ⟨?_, fun _ wrong => (by cases wrong), trivial⟩
              intro position same
              exact kept position same
  · rw [Bool.not_eq_true] at complete
    simp only [complete, Bool.not_false, if_true] at taken
    obtain rfl := Option.some.inj (transition_next taken)
    exact drained_sound before.inputStreamId _ target kept rfl fits

end

theorem apply_sound (before after : WindowContinuation) (result : WindowActionResult) (budget : WorkBudget)
    (facts : PrimitiveFacts) (taken : machine.apply before result budget = .ok ⟨some after, facts⟩)
    (fits : after.phase.stored.ordinalFits) : after.stored.Sound := by
  obtain ⟨action, acted, taken⟩ := bind_ok_iff.mp taken
  obtain ⟨_, valid, _⟩ := bind_ok_iff.mp acted
  cases action with
  | admitted input =>
      cases result with
      | admitted admitted =>
          have taken := past_check (past_check (past_check taken))
          obtain ⟨admittedFacts, target⟩ := admitted
          cases target with
          | continuing next | drain firstPartitionQueueId target =>
              have taken := past_check (past_check taken)
              obtain ⟨_, checked, taken⟩ := bind_ok_iff.mp taken
              obtain rfl := Option.some.inj (transition_next taken)
              exact validated_sound machine _ checked fits
          | idle => cases taken
      | _ => cases taken
  | enumerate queue cursor =>
      cases result with
      | enumerated page => exact internal_page_sound machine valid taken fits
      | _ => cases taken
  | buildPeers queue cursor =>
      cases result with
      | peersBuilt page => exact internal_page_sound machine valid taken fits
      | _ => cases taken
  | buildFrames queue cursor =>
      cases result with
      | framesBuilt page => exact internal_page_sound machine valid taken fits
      | _ => cases taken
  | foldAggregate queue functionOrdinal cursor =>
      cases result with
      | aggregateFolded page => exact fold_sound machine valid taken fits
      | _ => cases taken
  | evaluate queue functionOrdinal cursor =>
      cases result with
      | evaluated page => exact evaluation_sound machine valid taken fits
      | _ => cases taken
  | diff queue leg cursor =>
      cases result with
      | diffed page => exact diff_sound machine valid taken fits
      | _ => cases taken
  | cleanup queue cursor =>
      cases result with
      | cleaned cleaned => exact cleanup_sound machine valid taken fits
      | _ => cases taken
  | forwardFrontier input =>
      cases result with
      | frontierForwarded frontierFacts =>
          have taken := past_check (past_check taken)
          cases taken
      | _ => cases taken

theorem produced_sound (produced : Produced machine continuation) (fits : continuation.phase.stored.ordinalFits) :
    continuation.stored.Sound := by
  cases produced with
  | start _ valid => exact validated_sound machine continuation valid fits
  | next before _ result budget facts previous taken => exact apply_sound machine before continuation result budget facts taken fits

end Produced

-- A continuation that some machine comes to, as its row holds it.
def ProducedRow (stored : StoredContinuation) : Prop :=
  ∃ machine continuation, Produced machine continuation ∧ stored = continuation.stored

theorem window_round_trips : windowCodec.RoundTrips (fun _ => True) ProducedRow
    (fun stored => stored.phase.ordinalFits) := by
  apply ContinuationCodec.round_trips window_lawful
  · intro stored ⟨machine, continuation, produced, same⟩ fits
    rw [same] at fits ⊢
    exact produced_sound machine continuation produced fits
  · intro continuation fields encoded
    exact ((encode_written continuation fields).mp encoded).1

end Shiba.Window
