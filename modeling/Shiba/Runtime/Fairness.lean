import Shiba.Execution.Quantum
import Shiba.Library.Rotation

set_option autoImplicit false

namespace Shiba.Runtime

open Shiba.Stream Shiba.Execution Rotation

def operatorMaxStepsPerRound : Nat := 64

-- Milliseconds.
def operatorTimeBudget : Nat := 50

def gcMaxEffectStreamsPerRound : Nat := 64

def gcMaxEffectChunksPerStream : Nat := 64

section Discovery

-- One range query, over the ids its predicate finds.
def idsInRange (cursor : Option Nat) (afterCursor : Bool) (limit : Nat) (ids : List Nat) : List Nat :=
  (ascending (ids.filter fun id => cursor.all fun cursor => if afterCursor then decide (cursor < id) else decide (id ≤ cursor))).take limit

-- The ids after the cursor, and below the limit the others behind them.
def idsAround (cursor : Option Nat) (maximum : Nat) (inRange : Bool → Nat → List Nat) : List Nat :=
  let ids := inRange true maximum
  if cursor.isSome && decide (ids.length < maximum) then ids ++ inRange false (maximum - ids.length) else ids

variable {Row : Type}

-- The predicate on effect_streams and its consumers.
def collectable (stream : EffectStream Row) : Bool :=
  decide (stream.firstRetainedChunkSeq < stream.nextChunkSeq) &&
    ((stream.isSource && stream.consumers.isEmpty) ||
      (stream.consumers.map StreamConsumer.nextChunkSeq).min?.any fun slowest => decide (stream.firstRetainedChunkSeq < slowest))

structure StreamTable (Row : Type) where
  rows : List (EffectStream Row)
  keyed : (rows.map EffectStream.streamId).Nodup

def collectableIds (streams : StreamTable Row) : List Nat := (streams.rows.filter collectable).map EffectStream.streamId

-- The two queries of one discovery each read the table as it is then.
structure Reads (Table : Type) where
  afterCursor : Table
  wrapped : Table

def Reads.of {Table : Type} (reads : Reads Table) (afterCursor : Bool) : Table :=
  if afterCursor then reads.afterCursor else reads.wrapped

def gcEffectStreamIdsInRange (streams : Reads (StreamTable Row)) (cursor : Option Nat) (afterCursor : Bool) (limit : Nat) : List Nat :=
  idsInRange cursor afterCursor limit (collectableIds (streams.of afterCursor))

def gcEffectStreamIds (streams : Reads (StreamTable Row)) (cursor : Option Nat) : List Nat :=
  idsAround cursor gcMaxEffectStreamsPerRound (gcEffectStreamIdsInRange streams cursor)

def lockEffectStreamsForGc (streamIds : List Nat) (streams : List (EffectStream Row)) : List Nat :=
  ascending ((streams.filter fun stream => decide (stream.streamId ∈ streamIds)).map EffectStream.streamId)

-- One call of gc_effect_stream, with the chunks it deletes.
def gcOneStream (rowLimit byteLimit : Nat) (round : Nat × List (EffectStream Row)) (streamId : Nat) :
    Except Fault (Nat × List (EffectStream Row)) := do
  let rows ← round.2.mapM fun stream =>
    if stream.streamId = streamId then gcEffectStream stream gcMaxEffectChunksPerStream rowLimit byteLimit else .ok stream
  let deleted := (round.2.map fun stream => stream.chunks.length).sum - (rows.map fun stream => stream.chunks.length).sum
  return (round.1 + deleted, rows)

-- The cursor moves to the last stream selected, and stays where none is.
def gcEffectStreams (streams : Reads (StreamTable Row)) (locked : List (EffectStream Row)) (cursor : Option Nat)
    (rowLimit byteLimit : Nat) : Except Fault (Nat × List (EffectStream Row) × Option Nat) := do
  let streamIds := gcEffectStreamIds streams cursor
  let collected ← (lockEffectStreamsForGc streamIds locked).foldlM (gcOneStream rowLimit byteLimit) (0, locked)
  return (collected.1, collected.2, streamIds.getLast?.or cursor)

end Discovery

section Ready

variable {Row : Type}

structure Dataflow where
  resultOid : Oid
  active : Bool
deriving DecidableEq, Repr

structure OperatorCheckpoint where
  resultOid : Oid
  stageId : Nat
  hasContinuation : Bool
deriving DecidableEq, Repr

structure Publication where
  slotGeneration : Nat
  publishedLsn : Option Lsn
deriving DecidableEq, Repr

-- The tables that the durable readiness predicate reads.
structure DurableTables (Row : Type) where
  dataflows : List Dataflow
  checkpoints : List OperatorCheckpoint
  streams : List (EffectStream Row)
  publications : List Publication
  keyed : (dataflows.map Dataflow.resultOid).Nodup

def inputReady (publications : List Publication) (stream : EffectStream Row) (consumer : StreamConsumer) : Bool :=
  decide (consumer.nextChunkSeq < stream.nextChunkSeq) ||
    match stream.producer with
    | .source slotGeneration _ =>
        publications.any fun publication => decide (publication.slotGeneration = slotGeneration) &&
          publication.publishedLsn.any fun published => decide (consumer.consumedFrontierLsn < published)
    | .operator _ _ => false

def outputBlocked (checkpoint : OperatorCheckpoint) (stream : EffectStream Row) : Bool :=
  decide (stream.producer = .operator checkpoint.resultOid checkpoint.stageId) && stream.backpressured

-- DURABLE_STAGE_READY
def durableStageReady (tables : DurableTables Row) (checkpoint : OperatorCheckpoint) : Bool :=
  (checkpoint.hasContinuation || tables.streams.any fun stream => stream.consumers.any fun consumer =>
    decide (consumer.consumer.resultOid = checkpoint.resultOid) &&
      decide (consumer.consumer.consumerStageId = checkpoint.stageId) && inputReady tables.publications stream consumer) &&
    !tables.streams.any (outputBlocked checkpoint)

def resultReady (tables : DurableTables Row) (dataflow : Dataflow) : Bool :=
  dataflow.active && tables.checkpoints.any fun checkpoint =>
    decide (checkpoint.resultOid = dataflow.resultOid) && durableStageReady tables checkpoint

def readyIds (tables : DurableTables Row) : List Oid := (tables.dataflows.filter (resultReady tables)).map Dataflow.resultOid

def readyResultOidsInRange (tables : Reads (DurableTables Row)) (cursor : Option Oid) (afterCursor : Bool) (limit : Nat) : List Oid :=
  idsInRange cursor afterCursor limit (readyIds (tables.of afterCursor))

def readyResultOids (tables : Reads (DurableTables Row)) (cursor : Option Oid) : List Oid :=
  idsAround cursor operatorMaxStepsPerRound (readyResultOidsInRange tables cursor)

-- partition_point leaves open where its search looks on a slice that is not partitioned.
def rotateAfterCursor (probe : Nat → Nat → Nat) (resultOids : List Oid) (cursor : Option Oid) : List Oid :=
  match cursor with
  | none => resultOids
  | some cursor =>
      let split := partitionPoint probe (fun resultOid => decide (resultOid ≤ cursor)) resultOids
      resultOids.drop split ++ resultOids.take split

end Ready

section Loop

-- What one round meets: the clock and the latch before each attempt, and how the
-- steps of the operators turn out.
structure Surroundings where
  probe : Nat → Nat → Nat
  elapsed : Nat → Nat
  interrupted : Nat → Bool
  stepOneOperator : Nat → Oid → Option (StepOutcome × Bool)

structure OperatorRound where
  attempts : List Oid
  cursor : Option Oid
  worked : Option Nat

def drainHasCapacity (processed elapsed maxItems timeBudget : Nat) : Bool :=
  decide (processed < maxItems) && decide (elapsed < timeBudget)

theorem drain_below (processed elapsed maxItems timeBudget : Nat)
    (capacity : drainHasCapacity processed elapsed maxItems timeBudget = true) : processed < maxItems := by
  rw [drainHasCapacity, Bool.and_eq_true, decide_eq_true_eq] at capacity
  exact capacity.1

variable (around : Surroundings)

-- A round without a count of the worked steps ends the Runtime.
def operatorLoop (attempted worked : Nat) (readyResults : List Oid) (cursor : Option Oid) : OperatorRound :=
  if _capacity : drainHasCapacity attempted (around.elapsed attempted) operatorMaxStepsPerRound operatorTimeBudget = true then
    match readyResults with
    | [] => ⟨[], cursor, some worked⟩
    | resultOid :: queued =>
        if around.interrupted attempted then ⟨[], cursor, none⟩
        else
          match around.stepOneOperator attempted resultOid with
          | none => ⟨[resultOid], some resultOid, none⟩
          | some (outcome, hasMore) =>
              let later := operatorLoop (attempted + 1) (if outcome.isCommit then worked + 1 else worked)
                (if hasMore then queued ++ [resultOid] else queued) (some resultOid)
              { later with attempts := resultOid :: later.attempts }
  else ⟨[], cursor, some worked⟩
termination_by operatorMaxStepsPerRound - attempted
decreasing_by
  have below := drain_below _ _ _ _ _capacity
  omega

def stepReadyOperatorsBounded (readyResults : List Oid) (cursor : Option Oid) : OperatorRound :=
  operatorLoop around 0 0 (rotateAfterCursor around.probe readyResults cursor) cursor

end Loop

section Turns

-- The ids that each query finds in its own part of the order.
def seen (cursor : Option Nat) (afterCursor behind : List Nat) : List Nat :=
  afterCursor.filter (fun id => !wrapped cursor id) ++ behind.filter (wrapped cursor)

variable (cursor : Option Nat) (maximum : Nat) (ids : Bool → List Nat)

section

variable (afterCursor behind : List Nat)

theorem seen_mem (id : Nat) (member : id ∈ seen cursor afterCursor behind) :
    id ∈ afterCursor ∨ id ∈ behind := by
  rcases List.mem_append.mp member with first | second
  · exact .inl (List.mem_of_mem_filter first)
  · exact .inr (List.mem_of_mem_filter second)

theorem mem_seen (id : Nat) (first : id ∈ afterCursor) (second : id ∈ behind) :
    id ∈ seen cursor afterCursor behind := by
  rw [seen, List.mem_append, List.mem_filter, List.mem_filter]
  cases place : wrapped cursor id with
  | false => exact .inl ⟨first, rfl⟩
  | true => exact .inr ⟨second, rfl⟩

theorem seen_nodup (first : afterCursor.Nodup) (second : behind.Nodup) :
    (seen cursor afterCursor behind).Nodup := by
  rw [seen, List.nodup_append]
  refine ⟨first.filter _, second.filter _, ?_⟩
  intro id early other late same
  have unwrapped := (List.mem_filter.mp early).2
  rw [same, (List.mem_filter.mp late).2] at unwrapped
  cases unwrapped

theorem seen_turn :
    turn cursor (seen cursor afterCursor behind) =
      ascending (afterCursor.filter fun id => !wrapped cursor id) ++ ascending (behind.filter (wrapped cursor)) := by
  have never : ∀ ids : List Nat, (ids.filter (wrapped cursor)).filter (fun id => !wrapped cursor id) = [] := by
    intro ids
    rw [List.filter_eq_nil_iff]
    intro id member
    rw [(List.mem_filter.mp member).2]
    exact Bool.false_ne_true
  have neither : ∀ ids : List Nat, (ids.filter fun id => !wrapped cursor id).filter (wrapped cursor) = [] := by
    intro ids
    rw [List.filter_eq_nil_iff]
    intro id member
    rw [Bool.not_eq_true' _ |>.mp (List.mem_filter.mp member).2]
    exact Bool.false_ne_true
  rw [turn, seen, List.filter_append, List.filter_append, never, neither, List.filter_filter, List.filter_filter,
    List.append_nil, List.nil_append]
  simp only [Bool.and_self]

end

theorem range_after (limit : Nat) (ids : List Nat) :
    idsInRange cursor true limit ids = (ascending (ids.filter fun id => !wrapped cursor id)).take limit := by
  have same : (fun id : Nat => cursor.all fun cursor => if true = true then decide (cursor < id) else decide (id ≤ cursor)) =
      fun id => !wrapped cursor id := by
    funext id
    cases cursor with
    | none => rfl
    | some cursor =>
        rw [Option.all_some, if_pos rfl, wrapped, Option.any_some, ← decide_not]
        simp only [not_le]
  rw [idsInRange, same]

theorem range_behind (cursor limit : Nat) (ids : List Nat) :
    idsInRange (some cursor) false limit ids = (ascending (ids.filter (wrapped (some cursor)))).take limit := rfl

-- A discovery finds what comes next in the cyclic order of the ids it sees.
theorem around_turn :
    idsAround cursor maximum (fun afterCursor limit => idsInRange cursor afterCursor limit (ids afterCursor)) =
      (turn cursor (seen cursor (ids true) (ids false))).take maximum := by
  rw [seen_turn, List.take_append, idsAround]
  simp only [range_after]
  cases cursor with
  | none =>
      have nothing : (ids false).filter (wrapped none) = [] := List.filter_eq_nil_iff.mpr fun _ _ => Bool.false_ne_true
      rw [nothing, Option.isSome_none, Bool.false_and, if_neg Bool.false_ne_true]
      exact (List.append_nil _).symm.trans (congrArg _ List.take_nil.symm)
  | some cursor =>
      rw [Option.isSome_some, Bool.true_and, range_behind, List.length_take]
      by_cases room : (ascending ((ids true).filter fun id => !wrapped (some cursor) id)).length < maximum
      · rw [Nat.min_eq_right room.le, if_pos (decide_eq_true room)]
      · have full : maximum ≤ (ascending ((ids true).filter fun id => !wrapped (some cursor) id)).length := not_lt.mp room
        rw [Nat.min_eq_left full, if_neg (by simp), Nat.sub_eq_zero_of_le full, List.take_zero, List.append_nil]

theorem around_prefix :
    ∃ first second, idsAround cursor maximum (fun afterCursor limit => idsInRange cursor afterCursor limit (ids afterCursor)) =
        first ++ second ∧
      (∀ id ∈ first, wrapped cursor id = false) ∧ ∀ id ∈ second, wrapped cursor id = true := by
  rw [around_turn, seen_turn, List.take_append]
  refine ⟨_, _, rfl, ?_, ?_⟩
  · intro id member
    have found := (ascending_mem _ id).mp (List.mem_of_mem_take member)
    exact (Bool.not_eq_true' _).mp (List.mem_filter.mp found).2
  · intro id member
    have found := (ascending_mem _ id).mp (List.mem_of_mem_take member)
    exact (List.mem_filter.mp found).2

-- A round that misses an id serves as many ids as it may, all of them sooner.
theorem missed_page (ids : List Nat) (id : Nat) (distinct : ids.Nodup) (member : id ∈ ids)
    (missed : id ∉ (turn cursor ids).take maximum) :
    ((turn cursor ids).take maximum).length = maximum ∧
      ∀ other ∈ (turn cursor ids).take maximum, sooner cursor other id = true := by
  refine ⟨?_, page_sooner cursor ids _ id distinct (List.take_prefix _ _) member missed⟩
  rw [List.length_take]
  apply Nat.min_eq_left
  by_contra short
  rw [List.take_of_length_le (by omega), turn_mem] at missed
  exact missed member

end Turns

section Service

variable {Row : Type}

def seenStreams (streams : Reads (StreamTable Row)) (cursor : Option Nat) : List Nat :=
  seen cursor (collectableIds streams.afterCursor) (collectableIds streams.wrapped)

def seenResults (tables : Reads (DurableTables Row)) (cursor : Option Oid) : List Oid :=
  seen cursor (readyIds tables.afterCursor) (readyIds tables.wrapped)

section

variable (tables : Reads (DurableTables Row)) (streams : Reads (StreamTable Row)) (cursor : Option Nat)

theorem seen_streams_nodup : (seenStreams streams cursor).Nodup :=
  seen_nodup cursor _ _ (streams.afterCursor.keyed.sublist (List.filter_sublist.map _))
    (streams.wrapped.keyed.sublist (List.filter_sublist.map _))

theorem seen_results_nodup (cursor : Option Oid) : (seenResults tables cursor).Nodup :=
  seen_nodup cursor _ _ (tables.afterCursor.keyed.sublist (List.filter_sublist.map _))
    (tables.wrapped.keyed.sublist (List.filter_sublist.map _))

theorem gc_ids_turn :
    gcEffectStreamIds streams cursor = (turn cursor (seenStreams streams cursor)).take gcMaxEffectStreamsPerRound :=
  around_turn cursor gcMaxEffectStreamsPerRound fun afterCursor => collectableIds (streams.of afterCursor)

theorem ready_oids_turn (cursor : Option Oid) :
    readyResultOids tables cursor = (turn cursor (seenResults tables cursor)).take operatorMaxStepsPerRound :=
  around_turn cursor operatorMaxStepsPerRound fun afterCursor => readyIds (tables.of afterCursor)

theorem gc_cursor (locked rows : List (EffectStream Row)) (cursor next : Option Nat) (rowLimit byteLimit deleted : Nat)
    (ok : gcEffectStreams streams locked cursor rowLimit byteLimit = .ok (deleted, rows, next)) :
    next = (gcEffectStreamIds streams cursor).getLast?.or cursor := by
  obtain ⟨collected, _, done⟩ := bind_ok_iff.mp ok
  have done := Except.ok.inj done
  rw [Prod.mk.injEq, Prod.mk.injEq] at done
  exact done.2.2.symm

end

-- One round: a stream that it misses has as many streams fewer ahead of it.
theorem gc_nearer (known : List Nat) (streams : Reads (StreamTable Row)) (cursor : Option Nat) (streamId : Nat) (distinct : known.Nodup)
    (inside : ∀ id ∈ seenStreams streams cursor, id ∈ known) (stays : streamId ∈ seenStreams streams cursor)
    (missed : streamId ∉ gcEffectStreamIds streams cursor) :
    ahead ((gcEffectStreamIds streams cursor).getLast?.or cursor) known streamId + gcMaxEffectStreamsPerRound ≤
      ahead cursor known streamId := by
  rw [gc_ids_turn] at missed ⊢
  obtain ⟨full, before⟩ := missed_page cursor _ _ streamId (seen_streams_nodup streams cursor) stays missed
  have first := List.take_prefix gcMaxEffectStreamsPerRound (turn cursor (seenStreams streams cursor))
  have ordered := (turn_pairwise cursor _ (seen_streams_nodup streams cursor)).sublist first.sublist
  generalize (turn cursor (seenStreams streams cursor)).take gcMaxEffectStreamsPerRound = page at full before first ordered ⊢
  cases ended : page.getLast? with
  | none =>
      rw [List.getLast?_eq_none_iff.mp ended] at full
      cases full
  | some last =>
      have known_ : ∀ other ∈ page, other ∈ known :=
        fun other served => inside other ((turn_mem cursor _ other).mp (first.subset served))
      have nearer := ahead_served distinct known_ ordered before ended
      rw [full] at nearer
      exact nearer

theorem rotation_kept (probe : Nat → Nat → Nat) (tables : Reads (DurableTables Row)) (cursor : Option Oid) :
    rotateAfterCursor probe (readyResultOids tables cursor) cursor = readyResultOids tables cursor := by
  cases cursor with
  | none => rfl
  | some cursor =>
      obtain ⟨first, second, split, outside, within⟩ := around_prefix (some cursor) operatorMaxStepsPerRound
        fun afterCursor => readyIds (tables.of afterCursor)
      have split : readyResultOids tables (some cursor) = first ++ second := split
      rw [split, rotateAfterCursor]
      rcases partition_rotated probe (fun resultOid => decide (resultOid ≤ cursor)) first second outside within with start | finish
      · rw [start, List.drop_zero, List.take_zero, List.append_nil]
      · rw [finish, List.drop_length, List.take_length, List.nil_append]

-- On a slice in ascending order the same function does rotate.
example : rotateAfterCursor (fun low high => (high - low) / 2) [10, 20, 30, 40] (some 20) = [30, 40, 10, 20] := by decide

end Service

section Attempts

variable (around : Surroundings)

-- What a loop attempts: the queue in its order before anything again, and the
-- cursor stands on the last attempt.
structure Served (attempted : Nat) (queued : List Oid) (cursor : Option Oid) (round : OperatorRound) : Prop where
  limited : round.attempts.length ≤ operatorMaxStepsPerRound - attempted
  inOrder : round.attempts.take queued.length <+: queued
  moved : round.cursor = round.attempts.getLast?.or cursor

section

variable (attempted worked : Nat) (queued : List Oid) (cursor : Option Oid)

theorem served_none (worked : Option Nat) :
    Served attempted queued cursor ⟨[], cursor, worked⟩ := by
  refine ⟨Nat.zero_le _, ?_, rfl⟩
  rw [List.take_nil]
  exact List.nil_prefix

theorem served_next {attempted : Nat} {resultOid : Oid} {queued requeued : List Oid} {later : OperatorRound}
    (below : attempted < operatorMaxStepsPerRound) (tail : queued <+: requeued)
    (served : Served (attempted + 1) requeued (some resultOid) later) :
    Served attempted (resultOid :: queued) cursor { later with attempts := resultOid :: later.attempts } := by
  have limited := served.limited
  refine ⟨?_, ?_, ?_⟩
  · rw [List.length_cons]
    omega
  · rw [List.length_cons, List.take_succ_cons, List.cons_prefix_cons]
    refine ⟨rfl, ?_⟩
    have shorter := served.inOrder.take queued.length
    rw [List.take_take, Nat.min_eq_left tail.length_le, List.prefix_iff_eq_take.mp tail |>.symm] at shorter
    exact shorter
  · rw [served.moved, List.getLast?_cons]
    cases later.attempts.getLast? <;> rfl

theorem loop_served :
    Served attempted queued cursor (operatorLoop around attempted worked queued cursor) := by
  induction attempted, worked, queued, cursor using operatorLoop.induct around with
  | case1 attempted worked cursor capacity =>
      rw [operatorLoop, dif_pos capacity]
      exact served_none attempted [] cursor _
  | case2 attempted worked cursor capacity resultOid queued interrupted =>
      rw [operatorLoop, dif_pos capacity, if_pos interrupted]
      exact served_none attempted _ cursor _
  | case3 attempted worked cursor capacity resultOid queued goes stepped =>
      rw [operatorLoop, dif_pos capacity, if_neg goes, stepped]
      exact served_next cursor (drain_below _ _ _ _ capacity) (List.prefix_refl _) (served_none _ _ _ _)
  | case4 attempted worked cursor capacity resultOid queued goes outcome hasMore stepped ih =>
      rw [operatorLoop, dif_pos capacity, if_neg goes, stepped]
      simp only [dite_eq_ite] at ih
      apply served_next cursor (drain_below _ _ _ _ capacity) _ ih
      cases hasMore with
      | false => exact List.prefix_refl _
      | true => exact List.prefix_append _ _
  | case5 attempted worked queued cursor full =>
      unfold operatorLoop
      rw [dif_neg full]
      exact served_none attempted _ cursor _

end

variable {Row : Type}

section

variable (tables : Reads (DurableTables Row)) (cursor : Option Oid)

theorem round_served :
    Served 0 (readyResultOids tables cursor) cursor (stepReadyOperatorsBounded around (readyResultOids tables cursor) cursor) := by
  rw [stepReadyOperatorsBounded, rotation_kept]
  exact loop_served around 0 0 _ cursor

-- The ready results are attempted in turn before any of them is attempted again.
theorem round_order :
    (stepReadyOperatorsBounded around (readyResultOids tables cursor) cursor).attempts.take (seenResults tables cursor).length <+:
      turn cursor (seenResults tables cursor) := by
  have served := round_served around tables cursor
  have inOrder := served.inOrder
  have first : readyResultOids tables cursor <+: turn cursor (seenResults tables cursor) := by
    rw [ready_oids_turn]
    exact List.take_prefix _ _
  have length : (readyResultOids tables cursor).length = min operatorMaxStepsPerRound (seenResults tables cursor).length := by
    rw [ready_oids_turn, List.length_take, (turn_perm cursor (seenResults tables cursor)).length_eq]
  rw [length] at inOrder
  by_cases fits : (seenResults tables cursor).length ≤ operatorMaxStepsPerRound
  · rw [Nat.min_eq_right fits] at inOrder
    exact inOrder.trans first
  · have limited := served.limited
    rw [Nat.min_eq_left (by omega), List.take_of_length_le (by omega)] at inOrder
    exact (List.take_prefix _ _).trans (inOrder.trans first)

end

-- One round: a result that it misses has fewer results ahead of it.
theorem round_nearer (known : List Oid) (tables : Reads (DurableTables Row)) (cursor : Option Oid) (resultOid : Oid)
    (distinct : known.Nodup) (inside : ∀ id ∈ seenResults tables cursor, id ∈ known) (stays : resultOid ∈ seenResults tables cursor)
    (some_ : (stepReadyOperatorsBounded around (readyResultOids tables cursor) cursor).attempts ≠ [])
    (missed : resultOid ∉ (stepReadyOperatorsBounded around (readyResultOids tables cursor) cursor).attempts) :
    ahead (stepReadyOperatorsBounded around (readyResultOids tables cursor) cursor).cursor known resultOid + 1 ≤
      ahead cursor known resultOid := by
  have inOrder := round_order around tables cursor
  have moved := (round_served around tables cursor).moved
  have nodup := seen_results_nodup tables cursor
  have length := (turn_perm cursor (seenResults tables cursor)).length_eq
  generalize stepReadyOperatorsBounded around (readyResultOids tables cursor) cursor = round at *
  have short : round.attempts.length < (seenResults tables cursor).length := by
    by_contra long
    have whole := inOrder.eq_of_length (by rw [List.length_take, length]; omega)
    rw [← turn_mem cursor, ← whole] at stays
    exact missed (List.mem_of_mem_take stays)
  rw [List.take_of_length_le short.le] at inOrder
  have before := page_sooner cursor _ _ resultOid nodup inOrder stays missed
  have ordered := (turn_pairwise cursor _ nodup).sublist inOrder.sublist
  have within : ∀ other ∈ round.attempts, other ∈ known :=
    fun other served => inside other ((turn_mem cursor _ other).mp (inOrder.subset served))
  cases ended : round.attempts.getLast? with
  | none => exact absurd (List.getLast?_eq_none_iff.mp ended) some_
  | some last =>
      have nearer := ahead_served distinct within ordered before ended
      have attempted := List.length_pos_iff.mpr some_
      rw [moved, ended, Option.some_or]
      omega

end Attempts

-- Every stream that stays collectable and every result that stays ready has its turn.
theorem round_robin_fair (Row : Type) :
    (∀ (known : List Nat) (streams : Nat → Reads (StreamTable Row)) (locked : Nat → List (EffectStream Row))
      (rowLimit byteLimit : Nat → Nat) (cursors : Nat → Option Nat) (streamId : Nat),
      let bound := (known.length + gcMaxEffectStreamsPerRound - 1) / gcMaxEffectStreamsPerRound + 1
      known.Nodup →
      (∀ round < bound, ∀ stream, stream ∈ (streams round).afterCursor.rows ∨ stream ∈ (streams round).wrapped.rows →
        stream.streamId ∈ known) →
      (∀ round < bound, ∃ deleted rows, gcEffectStreams (streams round) (locked round) (cursors round) (rowLimit round)
        (byteLimit round) = .ok (deleted, rows, cursors (round + 1))) →
      (∀ round < bound, streamId ∈ collectableIds (streams round).afterCursor ∧ streamId ∈ collectableIds (streams round).wrapped) →
      ∃ round < bound, streamId ∈ gcEffectStreamIds (streams round) (cursors round)) ∧
    (∀ (around : Surroundings) (tables : Reads (DurableTables Row)) (cursor : Option Oid),
      (turn cursor (seenResults tables cursor)).Perm (seenResults tables cursor) ∧
      (turn cursor (seenResults tables cursor)).Pairwise (fun one other => sooner cursor one other = true) ∧
      (stepReadyOperatorsBounded around (readyResultOids tables cursor) cursor).attempts.take (seenResults tables cursor).length <+:
        turn cursor (seenResults tables cursor)) ∧
    (∀ (known : List Oid) (around : Nat → Surroundings) (tables : Nat → Reads (DurableTables Row)) (cursors : Nat → Option Oid)
      (resultOid : Oid), known.Nodup → resultOid ∈ known →
      (∀ round < known.length, ∀ dataflow, dataflow ∈ (tables round).afterCursor.dataflows ∨
        dataflow ∈ (tables round).wrapped.dataflows → dataflow.resultOid ∈ known) →
      (∀ round < known.length, resultOid ∈ readyIds (tables round).afterCursor ∧ resultOid ∈ readyIds (tables round).wrapped) →
      (∀ round < known.length,
        let served := stepReadyOperatorsBounded (around round) (readyResultOids (tables round) (cursors round)) (cursors round)
        served.attempts ≠ [] ∧ cursors (round + 1) = served.cursor) →
      ∃ round < known.length,
        resultOid ∈ (stepReadyOperatorsBounded (around round) (readyResultOids (tables round) (cursors round)) (cursors round)).attempts) := by
  refine ⟨?_, ?_, ?_⟩
  · intro known streams locked rowLimit byteLimit cursors streamId bound distinct listed ran stays
    by_contra never
    have nearer : ∀ round < bound, ahead (cursors (round + 1)) known streamId + gcMaxEffectStreamsPerRound ≤
        ahead (cursors round) known streamId := by
      intro round less
      obtain ⟨deleted, rows, ok⟩ := ran round less
      rw [gc_cursor _ _ _ _ _ _ _ _ ok]
      apply gc_nearer known _ _ _ distinct _ _ fun served => never ⟨round, less, served⟩
      · intro id found
        rcases seen_mem _ _ _ id found with first | second
        · obtain ⟨stream, member, rfl⟩ := List.mem_map.mp first
          exact listed round less stream (.inl (List.mem_of_mem_filter member))
        · obtain ⟨stream, member, rfl⟩ := List.mem_map.mp second
          exact listed round less stream (.inr (List.mem_of_mem_filter member))
      · exact mem_seen _ _ _ _ (stays round less).1 (stays round less).2
    have waited := waits (fun round => ahead (cursors round) known streamId) gcMaxEffectStreamsPerRound bound nearer
    have start : ahead (cursors 0) known streamId ≤ known.length := List.length_filter_le _ _
    have unfolded : bound = (known.length + 64 - 1) / 64 + 1 := rfl
    simp only [gcMaxEffectStreamsPerRound] at waited
    omega
  · intro around tables cursor
    exact ⟨turn_perm cursor _, turn_pairwise cursor _ (seen_results_nodup tables cursor), round_order around tables cursor⟩
  · intro known around tables cursors resultOid distinct member listed stays ran
    by_contra never
    have nearer : ∀ round < known.length, ahead (cursors (round + 1)) known resultOid + 1 ≤ ahead (cursors round) known resultOid := by
      intro round less
      obtain ⟨some, moved⟩ := ran round less
      rw [moved]
      apply round_nearer (around round) known _ _ resultOid distinct _ _ some fun served => never ⟨round, less, served⟩
      · intro id found
        rcases seen_mem _ _ _ id found with first | second
        · obtain ⟨dataflow, member, rfl⟩ := List.mem_map.mp first
          exact listed round less dataflow (.inl (List.mem_of_mem_filter member))
        · obtain ⟨dataflow, member, rfl⟩ := List.mem_map.mp second
          exact listed round less dataflow (.inr (List.mem_of_mem_filter member))
      · exact mem_seen _ _ _ _ (stays round less).1 (stays round less).2
    have waited := waits (fun round => ahead (cursors round) known resultOid) 1 known.length nearer
    have start := ahead_less (cursors 0) known resultOid member
    omega

end Shiba.Runtime
