import Shiba.Execution.Bigint
import Shiba.Library.Spans

set_option autoImplicit false

namespace Shiba.Window

open Shiba.Execution Spans

inductive FrameMode where
  | rows
  | groups
  | range
deriving DecidableEq, Repr

-- Unbounded is preceding at the start and following at the end.
inductive FrameBound (Offset : Type) where
  | unbounded
  | currentRow
  | preceding (offset : Offset)
  | following (offset : Offset)
deriving DecidableEq, Repr

inductive FrameExclusion where
  | nothing
  | currentRow
  | group
  | ties
deriving DecidableEq, Repr

structure WindowFrame (Offset : Type) where
  mode : FrameMode
  start : FrameBound Offset
  finish : FrameBound Offset
  exclusion : FrameExclusion
deriving DecidableEq, Repr

def FrameBound.map {First Second : Type} (change : First → Second) : FrameBound First → FrameBound Second
  | .unbounded => .unbounded
  | .currentRow => .currentRow
  | .preceding offset => .preceding (change offset)
  | .following offset => .following (change offset)

-- offset_valid: an offset of a row is not NULL, and not negative.
def FrameBound.validOffset : FrameBound (Option Int) → Except Fault (FrameBound Nat)
  | .unbounded => .ok .unbounded
  | .currentRow => .ok .currentRow
  | .preceding (some offset) =>
      if 0 ≤ offset then .ok (.preceding offset.toNat) else .error (.failed "Window frame build returned invalid_offset")
  | .following (some offset) =>
      if 0 ≤ offset then .ok (.following offset.toNat) else .error (.failed "Window frame build returned invalid_offset")
  | .preceding none | .following none => .error (.failed "Window frame build returned invalid_offset")

-- The peers of a partition, in their order: a peer's identifier is its place.
structure Peer where
  firstOrdinal : Int
  lastOrdinal : Int
deriving DecidableEq, Repr

def Contiguous (rows : Nat) : Int → List Peer → Prop
  | next, [] => next = rows + 1
  | next, peer :: rest => peer.firstOrdinal = next ∧ peer.firstOrdinal ≤ peer.lastOrdinal ∧ Contiguous rows (peer.lastOrdinal + 1) rest

structure PeerTable where
  partitionRows : Nat
  peers : List Peer
  counted : partitionRows ≤ bigintMax
  contiguous : Contiguous partitionRows 1 peers

def peerPosition : List Peer → Int → Nat
  | [], _ => 1
  | peer :: rest, ordinal => if ordinal ≤ peer.lastOrdinal then 1 else peerPosition rest ordinal + 1

-- The peer_id column of the ordered rows.
def PeerTable.peerId (table : PeerTable) (ordinal : Int) : Int := (peerPosition table.peers ordinal : Nat)

def PeerTable.lookup (table : PeerTable) (peerId : Int) : Option Peer :=
  if peerId < 1 then none else table.peers[(peerId - 1).toNat]?

-- window_frame_base_expressions, for one row and its peer.
def baseStart (table : PeerTable) (mode : FrameMode) (ordinal : Int) (peer : Peer) : FrameBound Nat → Except Fault Int
  | .unbounded => .ok 1
  | .currentRow => .ok (if mode = .rows then ordinal else peer.firstOrdinal)
  | .preceding offset =>
      match mode with
      | .rows => bigint (max 1 (ordinal - offset))
      | .groups => do
          match table.lookup (← bigint (max 1 (table.peerId ordinal - offset))) with
          | some other => .ok other.firstOrdinal
          | none => bigint (table.partitionRows + 1)
      | .range => .error (.failed "Window RANGE offset escaped capability validation")
  | .following offset =>
      match mode with
      | .rows => bigint (min (table.partitionRows + 1) (ordinal + offset))
      | .groups =>
          match table.lookup (table.peerId ordinal + offset) with
          | some other => .ok other.firstOrdinal
          | none => bigint (table.partitionRows + 1)
      | .range => .error (.failed "Window RANGE offset escaped capability validation")

def baseEnd (table : PeerTable) (mode : FrameMode) (ordinal : Int) (peer : Peer) : FrameBound Nat → Except Fault Int
  | .unbounded => .ok table.partitionRows
  | .currentRow => .ok (if mode = .rows then ordinal else peer.lastOrdinal)
  | .preceding offset =>
      match mode with
      | .rows => bigint (max 0 (ordinal - offset))
      | .groups => do
          match table.lookup (← bigint (table.peerId ordinal - (← bigint offset))) with
          | some other => .ok other.lastOrdinal
          | none => .ok 0
      | .range => .error (.failed "Window RANGE offset escaped capability validation")
  | .following offset =>
      match mode with
      | .rows => bigint (min table.partitionRows (ordinal + offset))
      | .groups =>
          match table.lookup (table.peerId ordinal + offset) with
          | some other => .ok other.lastOrdinal
          | none => .ok table.partitionRows
      | .range => .error (.failed "Window RANGE offset escaped capability validation")

-- window_frame_intervals: the pairs of raw bounds, three at most.
def frameIntervals (exclusion : FrameExclusion) (baseStart baseEnd ordinal : Int) (peer : Peer) : Except Fault (List Span) :=
  match exclusion with
  | .currentRow => do
      let before ← bigint (ordinal - 1)
      let behind ← bigint (ordinal + 1)
      return [⟨baseStart, min baseEnd before⟩, ⟨max baseStart behind, baseEnd⟩]
  | .group => do
      let before ← bigint (peer.firstOrdinal - 1)
      let behind ← bigint (peer.lastOrdinal + 1)
      return [⟨baseStart, min baseEnd before⟩, ⟨max baseStart behind, baseEnd⟩]
  | .ties => do
      let before ← bigint (peer.firstOrdinal - 1)
      let behind ← bigint (peer.lastOrdinal + 1)
      return [⟨baseStart, min baseEnd before⟩, ⟨max baseStart ordinal, min baseEnd ordinal⟩, ⟨max baseStart behind, baseEnd⟩]
  | .nothing => .ok [⟨baseStart, baseEnd⟩]

-- A row of the frames table. Both columns of a pair are NULL, or neither is.
structure FrameRow where
  one : Option Span
  two : Option Span
  three : Option Span
  frameCount : Int
deriving DecidableEq, Repr

def FrameRow.spans (row : FrameRow) : List Span := row.one.toList ++ row.two.toList ++ row.three.toList

-- coalesce(end-start+1,0)
def spanCount : Option Span → Except Fault Int
  | some span => do bigint ((← bigint (span.last - span.first)) + 1)
  | none => .ok 0

-- The pairs that are not empty, and how many rows they hold.
def storeFrame (pairs : List Span) : Except Fault FrameRow := do
  let one := pairs[0]?.bind Span.normal
  let two := pairs[1]?.bind Span.normal
  let three := pairs[2]?.bind Span.normal
  let frameCount ← bigint ((← bigint ((← spanCount one) + (← spanCount two))) + (← spanCount three))
  return ⟨one, two, three, frameCount⟩

-- The frame of one row, as run_window_frames stores it.
def windowFrame (table : PeerTable) (frame : WindowFrame (Option Int)) (ordinal : Int) : Except Fault FrameRow := do
  let start ← frame.start.validOffset
  let finish ← frame.finish.validOffset
  match table.lookup (table.peerId ordinal) with
  | none => .error (.failed "Window frame insert count is inconsistent")
  | some peer => do
      let baseStart ← baseStart table frame.mode ordinal peer start
      let baseEnd ← baseEnd table frame.mode ordinal peer finish
      storeFrame (← frameIntervals frame.exclusion baseStart baseEnd ordinal peer)

-- window_native_value: the ordinals that first_value, last_value and nth_value look up.
def FrameRow.firstTarget (row : FrameRow) : Option Int :=
  ((row.one.map Span.first).or (row.two.map Span.first)).or (row.three.map Span.first)

def FrameRow.lastTarget (row : FrameRow) : Option Int :=
  ((row.three.map Span.last).or (row.two.map Span.last)).or (row.one.map Span.last)

def FrameRow.nthTarget (row : FrameRow) (nth : Option Int) : Except Fault (Option Int) :=
  match nth with
  | none => .ok none
  | some nth =>
      if nth ≤ 0 then .error (.failed "division by zero")
      else do
        let first ← spanCount row.one
        if nth ≤ first then
          match row.one with
          | none => .ok none
          | some span => do return some (← bigint ((← bigint (span.first + nth)) - 1))
        else do
          let second ← spanCount row.two
          if nth ≤ (← bigint (first + second)) then
            match row.two with
            | none => .ok none
            | some span => do return some (← bigint ((← bigint ((← bigint (span.first + nth)) - first)) - 1))
          else if nth ≤ row.frameCount then
            match row.three with
            | none => .ok none
            | some span => do
                return some (← bigint ((← bigint ((← bigint ((← bigint (span.first + nth)) - first)) - second)) - 1))
          else .ok none

-- The frame in SQL's terms: where a row stands, and which rows a bound takes in.
def framePosition (table : PeerTable) (mode : FrameMode) (ordinal : Int) : Int :=
  if mode = .rows then ordinal else table.peerId ordinal

def reachesStart (current position : Int) : FrameBound Nat → Bool
  | .unbounded => true
  | .currentRow => decide (current ≤ position)
  | .preceding offset => decide (current - offset ≤ position)
  | .following offset => decide (current + offset ≤ position)

def reachesEnd (current position : Int) : FrameBound Nat → Bool
  | .unbounded => true
  | .currentRow => decide (position ≤ current)
  | .preceding offset => decide (position ≤ current - offset)
  | .following offset => decide (position ≤ current + offset)

def excluded (table : PeerTable) (current row : Int) : FrameExclusion → Bool
  | .nothing => false
  | .currentRow => decide (row = current)
  | .group => decide (table.peerId row = table.peerId current)
  | .ties => decide (table.peerId row = table.peerId current) && decide (row ≠ current)

def inFrame (table : PeerTable) (frame : WindowFrame Nat) (current row : Int) : Bool :=
  reachesStart (framePosition table frame.mode current) (framePosition table frame.mode row) frame.start &&
    reachesEnd (framePosition table frame.mode current) (framePosition table frame.mode row) frame.finish &&
    !excluded table current row frame.exclusion

def partitionOrdinals (table : PeerTable) : List Int := (List.range table.partitionRows).map fun index : Nat => (index : Int) + 1

def sqlFrame (table : PeerTable) (frame : WindowFrame Nat) (current : Int) : List Int :=
  (partitionOrdinals table).filter (inFrame table frame current)

end Shiba.Window
