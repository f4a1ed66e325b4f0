import Shiba.Window.FrameExact

set_option autoImplicit false

namespace Shiba.Window

open Shiba.Execution Spans

-- The offsets as the frame's expressions give them for a row.
def WindowFrame.given (frame : WindowFrame Nat) : WindowFrame (Option Int) :=
  ⟨frame.mode, frame.start.map fun offset : Nat => some (offset : Int), frame.finish.map fun offset : Nat => some (offset : Int),
    frame.exclusion⟩

-- A RANGE frame has no offsets.
def WindowFrame.Supported (frame : WindowFrame Nat) : Prop :=
  frame.mode = .range → frame.start.offsetFree ∧ frame.finish.offsetFree

-- The stored frame of a row is SQL's.
structure StoresFrame (table : PeerTable) (frame : WindowFrame Nat) (ordinal : Int) (stored : FrameRow) : Prop where
  built : windowFrame table frame.given ordinal = .ok stored
  ordered : Ordered stored.spans
  inside : ∀ span ∈ stored.spans, 1 ≤ span.first ∧ span.first ≤ span.last ∧ span.last ≤ table.partitionRows
  rows : rows stored.spans = sqlFrame table frame ordinal
  counted : stored.frameCount = ((sqlFrame table frame ordinal).length : Int)
  first : stored.firstTarget = (sqlFrame table frame ordinal).head?
  last : stored.lastTarget = (sqlFrame table frame ordinal).getLast?

-- And so is every ordinal that is looked up in it.
structure Denotes (table : PeerTable) (frame : WindowFrame Nat) (ordinal : Int) (nth : Nat) (stored : FrameRow) : Prop
    extends StoresFrame table frame ordinal stored where
  nth : stored.nthTarget (some (nth : Int)) = .ok (sqlFrame table frame ordinal)[nth - 1]?

-- No bound of the frame is one past the largest ordinal, or beyond it.
def FrameRoom (table : PeerTable) (frame : WindowFrame Nat) (ordinal : Int) : Prop :=
  (table.partitionRows = bigintMax →
    reachesStart (framePosition table frame.mode ordinal) (framePosition table frame.mode table.partitionRows) frame.start = true ∧
      ¬ excludesLast table ordinal frame.exclusion) ∧
  ∀ offset, frame.mode = .groups → frame.finish = .preceding offset → offset ≤ bigintMax

-- The sum that nth_value forms before it subtracts is a bigint.
def NthRoom (table : PeerTable) (frame : WindowFrame Nat) (ordinal : Int) (nth : Nat) : Prop :=
  ∀ target, (sqlFrame table frame ordinal)[nth - 1]? = some target →
    target + 1 + earlierSide (sqlFrame table frame ordinal) (aside table frame.exclusion ordinal) target ≤ bigintMax

theorem given_valid (bound : FrameBound Nat) : (bound.map fun offset : Nat => some (offset : Int)).validOffset = .ok bound := by
  cases bound with
  | unbounded => rfl
  | currentRow => rfl
  | preceding offset =>
      change (if (0 : Int) ≤ offset then Except.ok (FrameBound.preceding (offset : Int).toNat) else
        .error (.failed "Window frame build returned invalid_offset")) = _
      rw [if_pos (Int.natCast_nonneg offset), Int.toNat_natCast]
  | following offset =>
      change (if (0 : Int) ≤ offset then Except.ok (FrameBound.following (offset : Int).toNat) else
        .error (.failed "Window frame build returned invalid_offset")) = _
      rw [if_pos (Int.natCast_nonneg offset), Int.toNat_natCast]

theorem ordinals_increasing (table : PeerTable) : (partitionOrdinals table).Pairwise (· < ·) := by
  rw [partitionOrdinals, List.pairwise_map]
  apply List.Pairwise.imp _ List.pairwise_lt_range
  intro earlier later less
  omega

theorem mem_ordinals (table : PeerTable) (row : Int) : row ∈ partitionOrdinals table ↔ 1 ≤ row ∧ row ≤ table.partitionRows := by
  rw [partitionOrdinals, List.mem_map]
  refine ⟨?_, ?_⟩
  · rintro ⟨index, inside, rfl⟩
    rw [List.mem_range] at inside
    omega
  · rintro ⟨low, high⟩
    refine ⟨(row - 1).toNat, ?_, by omega⟩
    rw [List.mem_range]
    omega

theorem frame_length (table : PeerTable) (frame : WindowFrame Nat) (ordinal : Int) :
    (sqlFrame table frame ordinal).length ≤ table.partitionRows := by
  have bound := List.length_filter_le (inFrame table frame ordinal) (partitionOrdinals table)
  rw [partitionOrdinals, List.length_map, List.length_range] at bound
  exact bound

section Frame

variable (table : PeerTable) (frame : WindowFrame Nat) (ordinal : Int)

-- The pairs of bounds hold the rows of the frame.
theorem pairs_frame (start finish : Int) (pairs : List Span) (positive : 1 ≤ start) (ends : finish ≤ table.partitionRows)
    (starts : ∀ row : Int, 1 ≤ row → row ≤ table.partitionRows →
      (start ≤ row ↔ reachesStart (framePosition table frame.mode ordinal) (framePosition table frame.mode row) frame.start = true))
    (finishes : ∀ row : Int, 1 ≤ row → row ≤ table.partitionRows →
      (row ≤ finish ↔ reachesEnd (framePosition table frame.mode ordinal) (framePosition table frame.mode row) frame.finish = true))
    (excluding : Excluding table frame.exclusion start finish ordinal pairs) : rows pairs = sqlFrame table frame ordinal := by
  apply increasing_eq id
  · exact rows_increasing pairs excluding.ordered
  · exact List.Pairwise.filter _ (ordinals_increasing table)
  · intro row
    rw [sqlFrame, List.mem_filter, mem_ordinals, inFrame, Bool.and_eq_true, Bool.and_eq_true, Bool.not_eq_true']
    refine ⟨?_, ?_⟩
    · intro member
      obtain ⟨span, inPairs, first, last⟩ := (mem_rows pairs row).mp member
      have bounds := excluding.within span inPairs
      have above : 1 ≤ row := by omega
      have below : row ≤ table.partitionRows := by omega
      obtain ⟨⟨behind, before⟩, kept⟩ := (excluding.kept row above below).mp member
      exact ⟨⟨above, below⟩, ⟨(starts row above below).mp behind, (finishes row above below).mp before⟩, kept⟩
    · rintro ⟨⟨above, below⟩, ⟨behind, before⟩, kept⟩
      exact (excluding.kept row above below).mpr
        ⟨⟨(starts row above below).mpr behind, (finishes row above below).mpr before⟩, kept⟩

theorem part_sized {start finish : Int} {pairs : List Span} (positive : 1 ≤ start) (ends : finish ≤ table.partitionRows)
    (excluding : Excluding table frame.exclusion start finish ordinal pairs) (index : Nat) :
    Sized (pairs[index]?.bind Span.normal) := by
  have counted := table.counted
  intro found isFound
  obtain ⟨span, isSpan, normal⟩ := Option.bind_eq_some_iff.mp isFound
  have bounds := excluding.within span (List.mem_of_getElem? isSpan)
  rw [Span.normal, Option.ite_none_right_eq_some] at normal
  obtain ⟨filled, ⟨⟩⟩ := normal
  omega

-- What is stored of them.
theorem stored_frame (start finish : Int) (pairs : List Span) (positive : 1 ≤ start) (ends : finish ≤ table.partitionRows)
    (excluding : Excluding table frame.exclusion start finish ordinal pairs) (isFrame : rows pairs = sqlFrame table frame ordinal) :
    ∃ stored, storeFrame pairs = .ok stored ∧ stored.spans = pairs.filterMap Span.normal ∧
      stored.one = pairs[0]?.bind Span.normal ∧ stored.two = pairs[1]?.bind Span.normal ∧ stored.three = pairs[2]?.bind Span.normal ∧
      stored.frameCount = ((sqlFrame table frame ordinal).length : Int) := by
  have counted := table.counted
  have length := frame_length table frame ordinal
  have spans := stored_spans pairs excluding.few
  have sized := part_sized table frame ordinal positive ends excluding
  have all : (rows (pairs[0]?.bind Span.normal).toList).length + (rows (pairs[1]?.bind Span.normal).toList).length +
      (rows (pairs[2]?.bind Span.normal).toList).length = (sqlFrame table frame ordinal).length := by
    rw [← isFrame, ← normal_rows pairs, ← spans, rows, rows, rows, rows, List.flatMap_append, List.flatMap_append,
      List.length_append, List.length_append]
  have total : ((rows (pairs[0]?.bind Span.normal).toList).length : Int) + (rows (pairs[1]?.bind Span.normal).toList).length +
      (rows (pairs[2]?.bind Span.normal).toList).length = ((sqlFrame table frame ordinal).length : Int) := by omega
  refine ⟨⟨pairs[0]?.bind Span.normal, pairs[1]?.bind Span.normal, pairs[2]?.bind Span.normal,
    ((sqlFrame table frame ordinal).length : Int)⟩, ?_, spans, rfl, rfl, rfl, rfl⟩
  rw [storeFrame, span_count _ (sized 0), ok_bind, span_count _ (sized 1), ok_bind, bigint_ok _ (by omega) (by omega), ok_bind,
    span_count _ (sized 2), ok_bind, bigint_ok _ (by omega) (by omega), ok_bind, total]
  rfl

variable (low : 1 ≤ ordinal) (high : ordinal ≤ table.partitionRows) (supported : frame.Supported) (nth : Nat) (positive : 0 < nth)

include low high supported positive

-- What becomes of a row's frame.
theorem frame_outcome :
    (∃ fault, windowFrame table frame.given ordinal = .error fault ∧ ¬ FrameRoom table frame ordinal) ∨
    ∃ stored, StoresFrame table frame ordinal stored ∧ FrameRoom table frame ordinal ∧
      ((stored.nthTarget (some (nth : Int)) = .ok (sqlFrame table frame ordinal)[nth - 1]? ∧ NthRoom table frame ordinal nth) ∨
        ∃ fault, stored.nthTarget (some (nth : Int)) = .error fault ∧ ¬ NthRoom table frame ordinal nth) := by
  obtain ⟨_, _, own, isOwn⟩ := lookup_own table ordinal low high
  have reads : windowFrame table frame.given ordinal = (baseStart table frame.mode ordinal own frame.start >>= fun start =>
      baseEnd table frame.mode ordinal own frame.finish >>= fun finish =>
        frameIntervals frame.exclusion start finish ordinal own >>= storeFrame) := by
    rw [windowFrame, WindowFrame.given, given_valid, ok_bind, given_valid, ok_bind, isOwn]
  rcases base_start table frame.mode ordinal own low high isOwn frame.start (fun range => (supported range).1) with
    ⟨fault, failed, full, behind⟩ | ⟨start, isStart, starting, _, starts⟩
  · left
    refine ⟨fault, ?_, ?_⟩
    · rw [reads, failed]
      rfl
    · intro room
      have reached := (room.1 full).1
      rw [behind] at reached
      cases reached
  rcases base_end table frame.mode ordinal own low high isOwn frame.finish (fun range => (supported range).2) with
    ⟨fault, offset, failed, isGroups, isFinish, large⟩ | ⟨finish, isFinish, _, ends, bounded, finishes⟩
  · left
    refine ⟨fault, ?_, ?_⟩
    · rw [reads, isStart, ok_bind, failed]
      rfl
    · intro room
      exact absurd (room.2 offset isGroups isFinish) (Nat.not_le.mpr large)
  rcases frame_intervals table ordinal own start finish isOwn low high frame.exclusion with
    ⟨fault, failed, full, last⟩ | ⟨pairs, isPairs, excluding, within⟩
  · left
    refine ⟨fault, ?_, ?_⟩
    · rw [reads, isStart, ok_bind, isFinish, ok_bind, failed]
      rfl
    · intro room
      exact (room.1 full).2 last
  have isFrame := pairs_frame table frame ordinal start finish pairs starting ends starts finishes excluding
  obtain ⟨stored, isStored, isSpans, one, two, three, counted⟩ :=
    stored_frame table frame ordinal start finish pairs starting ends excluding isFrame
  have room : FrameRoom table frame ordinal := by
    refine ⟨?_, ?_⟩
    · intro full
      refine ⟨(starts table.partitionRows (by omega) (Int.le_refl _)).mp (by omega), ?_⟩
      intro last
      exact within ⟨full, last⟩
    · intro offset isGroups isOffset
      by_contra large
      exact bounded ⟨isGroups, offset, isOffset, Nat.lt_of_not_le large⟩
  have isRows : rows stored.spans = sqlFrame table frame ordinal := by rw [isSpans, normal_rows, isFrame]
  have sizes := part_sized table frame ordinal starting ends excluding
  obtain ⟨side, rising, sides⟩ := excluding.sides
  have sideOf (index : Nat) (row : Int) (member : row ∈ rows (pairs[index]?.bind Span.normal).toList) :
      aside table frame.exclusion ordinal row = side index := by
    cases isPart : pairs[index]?.bind Span.normal with
    | none =>
        rw [isPart] at member
        cases member
    | some span =>
        rw [isPart, Option.toList_some, rows, List.flatMap_singleton, mem_span] at member
        obtain ⟨other, isOther, normal⟩ := Option.bind_eq_some_iff.mp isPart
        rw [Span.normal, Option.ite_none_right_eq_some] at normal
        obtain ⟨_, ⟨⟩⟩ := normal
        have bounds := excluding.within span (List.mem_of_getElem? isOther)
        exact sides index span row isOther (by omega) (by omega) member.1 member.2
  have target := nth_target stored (one ▸ sizes 0) (two ▸ sizes 1) (three ▸ sizes 2) (isRows ▸ counted)
    (by rw [isRows]; exact Nat.le_trans (frame_length table frame ordinal) table.counted) (aside table frame.exclusion ordinal) side rising
    (one ▸ sideOf 0) (two ▸ sideOf 1) (three ▸ sideOf 2) nth positive
  rw [isRows] at target
  right
  refine ⟨stored, ⟨?_, ?_, ?_, isRows, counted, ?_, ?_⟩, room, ?_⟩
  · rw [reads, isStart, ok_bind, isFinish, ok_bind, isPairs, ok_bind, isStored]
  · rw [isSpans]
    exact normal_ordered pairs excluding.ordered
  · intro span member
    rw [isSpans] at member
    obtain ⟨filled, inPairs⟩ := normal_filled pairs span member
    have bounds := excluding.within span inPairs
    omega
  · rw [first_target stored (one ▸ sizes 0) (two ▸ sizes 1) (three ▸ sizes 2), isRows]
  · rw [last_target stored (one ▸ sizes 0) (two ▸ sizes 1) (three ▸ sizes 2), isRows]
  · rcases target with isTarget | ⟨fault, beyond, failed, isBeyond, large⟩
    · exact .inl isTarget
    · refine .inr ⟨fault, failed, ?_⟩
      intro fits
      exact absurd (fits beyond isBeyond) (by omega)

end Frame

-- Four rows in three groups.
def fourPeers : List Peer := [⟨1, 2⟩, ⟨3, 3⟩, ⟨4, 4⟩]

theorem four_counted : 4 ≤ bigintMax := by decide

theorem four_contiguous : Contiguous 4 1 fourPeers := by
  refine ⟨rfl, by decide, rfl, by decide, rfl, by decide, rfl⟩

def fourRows : PeerTable where
  partitionRows := 4
  peers := fourPeers
  counted := four_counted
  contiguous := four_contiguous

def besideTies : WindowFrame Nat := ⟨.groups, .preceding 1, .following 1, .ties⟩

-- The largest partition, all of it one peer.
def allPeers : List Peer := [⟨1, bigintMax⟩]

theorem all_contiguous : Contiguous bigintMax 1 allPeers := by
  refine ⟨rfl, by decide, rfl⟩

def largestRows : PeerTable where
  partitionRows := bigintMax
  peers := allPeers
  counted := Nat.le_refl _
  contiguous := all_contiguous

def besideRow : WindowFrame Nat := ⟨.rows, .unbounded, .unbounded, .currentRow⟩

end Shiba.Window
