import Shiba.Runtime.Durable

set_option autoImplicit false

namespace Shiba.Runtime

open Transition Shiba.Ingress Shiba.Publication

variable {Payload Row : Type}

def FeedbackEvent.queuedLsn : FeedbackEvent → Option Lsn
  | .queued lsn => some lsn
  | _ => none

def FeedbackEvent.flushedLsn : FeedbackEvent → Option Lsn
  | .flushed lsn => some lsn
  | _ => none

def FeedbackEvent.recordedLsn : FeedbackEvent → Option Lsn
  | .recorded lsn _ => some lsn
  | _ => none

def queuedLsns (events : List FeedbackEvent) : List Lsn := events.filterMap FeedbackEvent.queuedLsn

def flushedLsns (events : List FeedbackEvent) : List Lsn := events.filterMap FeedbackEvent.flushedLsn

def recordedLsns (events : List FeedbackEvent) : List Lsn := events.filterMap FeedbackEvent.recordedLsn

section

variable (events : List FeedbackEvent) (event : FeedbackEvent)

@[simp] theorem queued_lsns_append :
    queuedLsns (events ++ [event]) = queuedLsns events ++ event.queuedLsn.toList := by
  cases event <;> simp [queuedLsns, FeedbackEvent.queuedLsn, List.filterMap_cons]

@[simp] theorem flushed_lsns_append :
    flushedLsns (events ++ [event]) = flushedLsns events ++ event.flushedLsn.toList := by
  cases event <;> simp [flushedLsns, FeedbackEvent.flushedLsn, List.filterMap_cons]

@[simp] theorem recorded_lsns_append :
    recordedLsns (events ++ [event]) = recordedLsns events ++ event.recordedLsn.toList := by
  cases event <;> simp [recordedLsns, FeedbackEvent.recordedLsn, List.filterMap_cons]

end

-- Nothing beyond what is durable was ever told or written down.
structure NeverAhead (events : List FeedbackEvent) : Prop where
  handed : ∀ lsn persisted, FeedbackEvent.handed lsn persisted ∈ events → lsn ≤ persisted
  recorded : ∀ lsn persisted, FeedbackEvent.recorded lsn persisted ∈ events → lsn ≤ persisted

def FlushedFirst (events : List FeedbackEvent) : Prop :=
  ∀ before lsn persisted after, events = before ++ .recorded lsn persisted :: after → .flushed lsn ∈ before

-- Where the reducer's state stands to what it has done.
structure Tracked (persistedLsn : Lsn) (state : FeedbackState) (events : List FeedbackEvent) : Prop where
  never : NeverAhead events
  flushedFirst : FlushedFirst events
  increases : (recordedLsns events).Pairwise (· < ·)
  recordedUp : ∀ lsn ∈ recordedLsns events, lsn ≤ state.recordedFeedbackLsn
  asked : ∀ lsn ∈ queuedLsns events, lsn ≤ persistedLsn
  pending : ∀ lsn, state.pendingFeedback = some lsn → lsn ≤ persistedLsn
  queued : ∀ lsn, state.queuedFeedback = some lsn → lsn ≤ persistedLsn
  newest : (queuedLsns events).max? = (state.pendingFeedback.or state.queuedFeedback).or (flushedLsns events).getLast?

def Safe (world : FeedbackWorld Payload Row) : Prop :=
  Durable world.catalog.ingress world.generation world.persistedLsn ∧
    Tracked world.persistedLsn world.feedback world.events

theorem max_newest {lsns : List Lsn} {newest : Lsn} (below : ∀ lsn ∈ lsns, lsn ≤ newest) :
    (lsns ++ [newest]).max? = some newest := by
  apply List.max?_eq_some_iff.mpr
  refine ⟨List.mem_append_right _ (List.mem_singleton.mpr rfl), ?_⟩
  intro lsn member
  rcases List.mem_append.mp member with old | same
  · exact below lsn old
  · exact Nat.le_of_eq (List.mem_singleton.mp same)

theorem flushed_first_append {events : List FeedbackEvent} {event : FeedbackEvent} (first : FlushedFirst events)
    (ready : ∀ lsn persisted, event = .recorded lsn persisted → .flushed lsn ∈ events) : FlushedFirst (events ++ [event]) := by
  intro before lsn persisted after same
  rcases List.eq_nil_or_concat after with rfl | ⟨rest, last, rfl⟩
  · obtain ⟨rfl, isEvent⟩ := List.append_inj' same rfl
    exact ready lsn persisted (List.cons.inj isEvent).1
  · rw [List.concat_eq_append, ← List.cons_append, ← List.append_assoc] at same
    obtain ⟨earlier, _⟩ := List.append_inj' same rfl
    exact first before lsn persisted rest earlier

section Tracks

variable {persistedLsn : Lsn} {state : FeedbackState} {events : List FeedbackEvent}

variable (tracked : Tracked persistedLsn state events)

include tracked

theorem tracked_queue :
    Tracked persistedLsn (state.queue persistedLsn) (events ++ [.queued persistedLsn]) := by
  have newest : (state.queue persistedLsn).pendingFeedback = some persistedLsn := by
    cases waiting : state.pendingFeedback with
    | none => simp only [FeedbackState.queue, waiting]
    | some lsn =>
        simp only [FeedbackState.queue, waiting]
        exact congrArg _ (Nat.max_eq_right (tracked.pending lsn waiting))
  constructor
  · constructor
    · intro lsn persisted member
      exact tracked.never.handed lsn persisted (by simpa using member)
    · intro lsn persisted member
      exact tracked.never.recorded lsn persisted (by simpa using member)
  · exact flushed_first_append tracked.flushedFirst (by simp)
  · simpa [FeedbackEvent.recordedLsn] using tracked.increases
  · simpa [FeedbackEvent.recordedLsn, FeedbackState.queue] using tracked.recordedUp
  · intro lsn member
    rw [queued_lsns_append] at member
    rcases List.mem_append.mp member with old | new
    · exact tracked.asked lsn old
    · exact Nat.le_of_eq (List.mem_singleton.mp new)
  · intro lsn waiting
    rw [newest] at waiting
    exact Nat.le_of_eq (Option.some.inj waiting).symm
  · exact tracked.queued
  · rw [newest]
    rw [queued_lsns_append]
    exact max_newest tracked.asked

theorem tracked_raised (raised : Lsn) (higher : persistedLsn ≤ raised) :
    Tracked raised state events :=
  ⟨tracked.never, tracked.flushedFirst, tracked.increases, tracked.recordedUp,
    fun lsn member => Nat.le_trans (tracked.asked lsn member) higher,
    fun lsn waiting => Nat.le_trans (tracked.pending lsn waiting) higher,
    fun lsn waiting => Nat.le_trans (tracked.queued lsn waiting) higher, tracked.newest⟩

theorem tracked_handed (lsn durable : Lsn) (below : lsn ≤ durable) :
    Tracked persistedLsn state (events ++ [.handed lsn durable]) := by
  constructor
  · constructor
    · intro other persisted member
      rcases List.mem_append.mp member with old | new
      · exact tracked.never.handed other persisted old
      · obtain ⟨rfl, rfl⟩ := FeedbackEvent.handed.inj (List.mem_singleton.mp new)
        exact below
    · intro other persisted member
      exact tracked.never.recorded other persisted (by simpa using member)
  · exact flushed_first_append tracked.flushedFirst (by simp)
  · simpa [FeedbackEvent.recordedLsn] using tracked.increases
  · simpa [FeedbackEvent.recordedLsn] using tracked.recordedUp
  · simpa [FeedbackEvent.queuedLsn] using tracked.asked
  · exact tracked.pending
  · exact tracked.queued
  · simpa [FeedbackEvent.queuedLsn, FeedbackEvent.flushedLsn] using tracked.newest

-- A flush of what is oldest in flight: `cleared` no longer waits for it.
theorem tracked_flushed (cleared : FeedbackState) (lsn : Lsn)
    (recorded : cleared.recordedFeedbackLsn = state.recordedFeedbackLsn) (unflushed : cleared.queuedFeedback = none)
    (pending : cleared.pendingFeedback = none ∨ cleared.pendingFeedback = state.pendingFeedback)
    (settles : state.pendingFeedback.or state.queuedFeedback = cleared.pendingFeedback.or (some lsn)) :
    Tracked persistedLsn cleared (events ++ [.flushed lsn]) := by
  constructor
  · constructor
    · intro other persisted member
      exact tracked.never.handed other persisted (by simpa using member)
    · intro other persisted member
      exact tracked.never.recorded other persisted (by simpa using member)
  · exact flushed_first_append tracked.flushedFirst (by simp)
  · simpa [FeedbackEvent.recordedLsn] using tracked.increases
  · rw [recorded]
    simpa [FeedbackEvent.recordedLsn] using tracked.recordedUp
  · simpa [FeedbackEvent.queuedLsn] using tracked.asked
  · intro other waiting
    rcases pending with empty | same
    · rw [empty] at waiting
      cases waiting
    · exact tracked.pending other (same ▸ waiting)
  · intro other waiting
    rw [unflushed] at waiting
    cases waiting
  · have before := tracked.newest
    rw [settles] at before
    rw [unflushed]
    simp only [queued_lsns_append, flushed_lsns_append, FeedbackEvent.queuedLsn, FeedbackEvent.flushedLsn, Option.toList_none,
      Option.toList_some, List.append_nil, List.getLast?_concat]
    rw [before]
    cases cleared.pendingFeedback <;> rfl

theorem tracked_sent (sent : FeedbackState) (lsn : Lsn) (waiting : state.pendingFeedback = some lsn)
    (empty : state.queuedFeedback = none) (recorded : sent.recordedFeedbackLsn = state.recordedFeedbackLsn)
    (pending : sent.pendingFeedback = none) (queued : sent.queuedFeedback = some lsn) :
    Tracked persistedLsn sent events := by
  refine ⟨tracked.never, tracked.flushedFirst, tracked.increases, recorded ▸ tracked.recordedUp, tracked.asked, ?_, ?_, ?_⟩
  · intro other wrong
    rw [pending] at wrong
    cases wrong
  · intro other same
    rw [queued] at same
    exact tracked.pending other (waiting.trans same)
  · rw [pending, queued, tracked.newest, waiting, empty]
    rfl

theorem tracked_recorded (lsn durable : Lsn) (below : lsn ≤ durable) (flushed : .flushed lsn ∈ events)
    (newer : state.recordedFeedbackLsn < lsn) :
    Tracked persistedLsn { state with recordedFeedbackLsn := lsn } (events ++ [.recorded lsn durable]) := by
  constructor
  · constructor
    · intro other persisted member
      exact tracked.never.handed other persisted (by simpa using member)
    · intro other persisted member
      rcases List.mem_append.mp member with old | new
      · exact tracked.never.recorded other persisted old
      · obtain ⟨rfl, rfl⟩ := FeedbackEvent.recorded.inj (List.mem_singleton.mp new)
        exact below
  · apply flushed_first_append tracked.flushedFirst
    intro other persisted same
    rw [← (FeedbackEvent.recorded.inj same).1]
    exact flushed
  · rw [recorded_lsns_append]
    apply List.pairwise_append.mpr
    refine ⟨tracked.increases, List.pairwise_singleton _ _, ?_⟩
    intro old member new same
    rw [List.mem_singleton.mp same]
    exact Nat.lt_of_le_of_lt (tracked.recordedUp old member) newer
  · intro other member
    rw [recorded_lsns_append] at member
    rcases List.mem_append.mp member with old | new
    · exact Nat.le_of_lt (Nat.lt_of_le_of_lt (tracked.recordedUp other old) newer)
    · exact Nat.le_of_eq (List.mem_singleton.mp new)
  · simpa [FeedbackEvent.queuedLsn] using tracked.asked
  · exact tracked.pending
  · exact tracked.queued
  · simpa [FeedbackEvent.queuedLsn, FeedbackEvent.flushedLsn] using tracked.newest

end Tracks

theorem advance_recorded_cases (state : FeedbackState) (lsn : Lsn) :
    ((lsn = 0 ∨ lsn ≤ state.recordedFeedbackLsn) ∧ state.advanceRecordedFeedback lsn = (state, none)) ∨
      (lsn ≠ 0 ∧ state.recordedFeedbackLsn < lsn ∧
        state.advanceRecordedFeedback lsn = ({ state with recordedFeedbackLsn := lsn }, some lsn)) := by
  unfold FeedbackState.advanceRecordedFeedback
  by_cases known : lsn = 0 ∨ lsn ≤ state.recordedFeedbackLsn
  · exact .inl ⟨known, if_pos known⟩
  · obtain ⟨positive, newer⟩ := not_or.mp known
    exact .inr ⟨positive, Nat.lt_of_not_le newer, if_neg known⟩

-- recordIngressFeedback takes every position that is durable.
theorem record_succeeds {db : IngressCatalog Payload} {generation : Nat} {lsn : Lsn} (positive : lsn ≠ 0)
    (durable : Durable db generation lsn) : ∃ after facts, recordIngressFeedback db generation lsn = .ok (after, facts) := by
  obtain ⟨replay, active, reached⟩ := durable
  have covered : reachedBy replay.persistedLsn lsn = true := by
    cases persisted : replay.persistedLsn with
    | none =>
        rw [persisted] at reached
        exact absurd (Nat.le_zero.mp reached) positive
    | some value =>
        rw [persisted] at reached
        exact decide_eq_true reached
  unfold recordIngressFeedback
  simp only [active, covered, if_true]
  by_cases advanced : beyond replay.confirmedLsn lsn = true
  · rw [if_pos advanced]
    exact ⟨_, _, rfl⟩
  · rw [if_neg advanced]
    exact ⟨_, _, rfl⟩

section World

variable (world after : FeedbackWorld Payload Row)

theorem durable_now (safe : Safe world) (lsn : Lsn) (below : lsn ≤ world.persistedLsn) :
    Durable world.catalog.ingress world.generation lsn ∧ lsn ≤ world.durable := by
  have durable := durable_below _ _ _ lsn below safe.1
  exact ⟨durable, durable_lsn _ _ _ durable⟩

theorem queue_safe (safe : Safe world) : Safe world.queue := ⟨safe.1, tracked_queue safe.2⟩

theorem handed_safe (safe : Safe world) (lsn : Lsn) (below : lsn ≤ world.persistedLsn) :
    Safe (world.log (.handed lsn world.durable)) :=
  ⟨safe.1, tracked_handed safe.2 lsn world.durable (durable_now world safe lsn below).2⟩

@[simp] theorem log_feedback (event : FeedbackEvent) : (world.log event).feedback = world.feedback := rfl

@[simp] theorem apply_forgets (state : FeedbackState) (transition : FeedbackTransition) :
    { world with feedback := state }.applyFeedbackTransition transition = world.applyFeedbackTransition transition := by
  unfold FeedbackWorld.applyFeedbackTransition
  cases transition.catalogRecord <;> rfl

theorem applied_state (transition : FeedbackTransition) (ok : world.applyFeedbackTransition transition = .ok after) :
    after.feedback = transition.state := by
  unfold FeedbackWorld.applyFeedbackTransition at ok
  cases record : transition.catalogRecord with
  | none =>
      simp only [record] at ok
      cases ok
      rfl
  | some lsn =>
      simp only [record] at ok
      obtain ⟨_, _, ok⟩ := bind_ok_iff.mp ok
      cases ok
      rfl

variable (safe : Safe world)

include safe

-- What a flush that came through leaves to record.
theorem settled_safe (lsn : Lsn) (flushed : .flushed lsn ∈ world.events) (below : lsn ≤ world.persistedLsn) :
    let moved := world.feedback.advanceRecordedFeedback lsn
    ∃ after, world.applyFeedbackTransition ⟨moved.1, moved.2⟩ = .ok after ∧ Safe after := by
  obtain ⟨durable, covered⟩ := durable_now world safe lsn below
  rcases advance_recorded_cases world.feedback lsn with ⟨_, same⟩ | ⟨positive, newer, moved⟩
  · rw [same]
    exact ⟨_, rfl, safe⟩
  · rw [moved]
    obtain ⟨ingress, facts, made⟩ := record_succeeds positive durable
    refine ⟨_, bind_ok_iff.mpr ⟨_, made, rfl⟩, ?_⟩
    refine ⟨feedback_rises world.catalog.ingress ingress world.generation lsn facts made _ safe.1, ?_⟩
    exact tracked_recorded safe.2 lsn world.durable covered flushed newer

-- What was in flight came through: the state forgets it and records it.
theorem flushed_safe (cleared : FeedbackState) (lsn : Lsn) (below : lsn ≤ world.persistedLsn)
    (recorded : cleared.recordedFeedbackLsn = world.feedback.recordedFeedbackLsn) (unflushed : cleared.queuedFeedback = none)
    (pending : cleared.pendingFeedback = none ∨ cleared.pendingFeedback = world.feedback.pendingFeedback)
    (settles : world.feedback.pendingFeedback.or world.feedback.queuedFeedback = cleared.pendingFeedback.or (some lsn)) :
    let moved := cleared.advanceRecordedFeedback lsn
    ∃ after, (world.log (.flushed lsn)).applyFeedbackTransition ⟨moved.1, moved.2⟩ = .ok after ∧ Safe after ∧
      after.feedback.queuedFeedback = none := by
  intro moved
  have tracked := tracked_flushed safe.2 cleared lsn recorded unflushed pending settles
  obtain ⟨after, made, still⟩ := settled_safe { world.log (.flushed lsn) with feedback := cleared } ⟨safe.1, tracked⟩ lsn
    (List.mem_append_right _ (List.mem_singleton.mpr rfl)) below
  rw [apply_forgets] at made
  refine ⟨after, made, still, ?_⟩
  have ends : after.feedback = moved.1 := applied_state _ _ _ made
  rw [ends]
  rcases advance_recorded_cases cleared lsn with ⟨_, same⟩ | ⟨_, _, same⟩
  · simp only [moved, same, unflushed]
  · simp only [moved, same, unflushed]

-- Nothing the reducer does fails, but for a flush that reports WouldBlock.
theorem flush_queued_safe (now : Nat) (flush : WriteStatus)
    (possible : world.feedback.queuedFeedback = none ∨ flush ≠ .wouldBlock) :
    ∃ after sends, world.flushQueued now flush = .ok (after, sends) ∧ Safe after ∧
      (sends = true → after.feedback.queuedFeedback = none) := by
  unfold FeedbackWorld.flushQueued
  cases waiting : world.feedback.queuedFeedback with
  | none => exact ⟨world, true, rfl, safe, fun _ => waiting⟩
  | some lsn =>
      have below := safe.2.queued lsn waiting
      have named : feedbackLsnOf world.feedback .flushQueued = .ok lsn := by simp only [feedbackLsnOf, waiting]
      cases flush with
      | flushed =>
          obtain ⟨after, made, still, empty⟩ := flushed_safe world safe { world.feedback with queuedFeedback := none } lsn
            below rfl rfl (.inr rfl) (by rw [waiting])
          have performed : world.perform .flushQueued lsn .flushed now = .ok after := by
            simp only [FeedbackWorld.perform, reduceFeedback, named, ok_bind]
            exact made
          refine ⟨after, true, bind_ok_iff.mpr ⟨after, performed, rfl⟩, still, fun _ => empty⟩
      | pendingFlush =>
          have performed : world.perform .flushQueued lsn .pendingFlush now = .ok world := by
            simp only [FeedbackWorld.perform, reduceFeedback, named, ok_bind]
            rfl
          refine ⟨world, false, bind_ok_iff.mpr ⟨world, performed, rfl⟩, safe, ?_⟩
          intro wrong
          cases wrong
      | wouldBlock =>
          rcases possible with empty | wrong
          · rw [empty] at waiting
            cases waiting
          · exact absurd rfl wrong

theorem send_pending_safe (now : Nat) (send : WriteStatus) (empty : world.feedback.queuedFeedback = none) :
    ∃ after, world.sendPending now send = .ok after ∧ Safe after := by
  unfold FeedbackWorld.sendPending
  cases waiting : world.feedback.pendingFeedback with
  | none => exact ⟨world, rfl, safe⟩
  | some lsn =>
      have below := safe.2.pending lsn waiting
      have sent := handed_safe world safe lsn below
      have named : feedbackLsnOf (world.log (.handed lsn world.durable)).feedback .sendPending = .ok lsn := by
        simp only [feedbackLsnOf, log_feedback, empty, waiting]
        rfl
      cases send with
      | flushed =>
          obtain ⟨after, made, still, _⟩ := flushed_safe (world.log (.handed lsn world.durable)) sent
            { world.feedback with pendingFeedback := none, lastStatusUpdate := now } lsn below rfl empty (.inl rfl)
            (by rw [log_feedback, waiting]; rfl)
          refine ⟨after, ?_, still⟩
          simp only [FeedbackWorld.perform, reduceFeedback, named, ok_bind]
          exact made
      | pendingFlush =>
          refine ⟨{ world.log (.handed lsn world.durable) with
            feedback := { world.feedback with pendingFeedback := none, queuedFeedback := some lsn, lastStatusUpdate := now } },
            ?_, sent.1, tracked_sent sent.2 _ lsn waiting empty rfl rfl rfl⟩
          simp only [FeedbackWorld.perform, reduceFeedback, named, ok_bind]
          rfl
      | wouldBlock =>
          refine ⟨world.log (.handed lsn world.durable), ?_, sent⟩
          simp only [FeedbackWorld.perform, reduceFeedback, named, ok_bind]
          rfl

theorem maintain_feedback_safe (now : Nat) (replyRequested : Bool) (flush send : WriteStatus)
    (possible : world.feedback.queuedFeedback = none ∨ flush ≠ .wouldBlock) :
    ∃ after, world.maintainFeedback now replyRequested flush send = .ok after ∧ Safe after := by
  obtain ⟨flushed, sends, made, still, empty⟩ := flush_queued_safe world safe now flush possible
  cases sends with
  | false => exact ⟨flushed, bind_ok_iff.mpr ⟨_, made, rfl⟩, still⟩
  | true =>
      have open_ := empty rfl
      by_cases due : replicationStatusDue flushed.feedback.lastStatusUpdate now replyRequested = true
      · obtain ⟨after, sent, ends⟩ := send_pending_safe flushed.queue (queue_safe flushed still) now send open_
        refine ⟨after, bind_ok_iff.mpr ⟨_, made, ?_⟩, ends⟩
        simp only [due, if_true]
        exact sent
      · obtain ⟨after, sent, ends⟩ := send_pending_safe flushed still now send open_
        refine ⟨after, bind_ok_iff.mpr ⟨_, made, ?_⟩, ends⟩
        simp only [due, if_true]
        exact sent

-- The same of every call that did not fail.
theorem maintained_safe {now : Nat} {replyRequested : Bool} {flush send : WriteStatus}
    (ok : world.maintainFeedback now replyRequested flush send = .ok after) : Safe after := by
  have possible : world.feedback.queuedFeedback = none ∨ flush ≠ .wouldBlock := by
    cases waiting : world.feedback.queuedFeedback with
    | none => exact .inl rfl
    | some lsn =>
        refine .inr ?_
        rintro rfl
        obtain ⟨_, flushed, _⟩ := bind_ok_iff.mp ok
        simp only [FeedbackWorld.flushQueued, waiting, FeedbackWorld.perform, reduceFeedback, feedbackLsnOf, ok_bind] at flushed
        cases flushed
  obtain ⟨other, made, still⟩ := maintain_feedback_safe world safe now replyRequested flush send possible
  obtain rfl := Except.ok.inj (made.symm.trans ok)
  exact still

end World

theorem feedback_step_safe [DecidableEq Payload] {codec : PayloadCodec Payload} {rowCodec : RowCodec Payload Row}
    {world after : FeedbackWorld Payload Row} {action : FeedbackAction Payload} (safe : Safe world)
    (ok : feedbackStep codec rowCodec world action = .ok after) : Safe after := by
  cases action with
  | persist settings batch now flush send =>
      obtain ⟨ingress, persisted, ok⟩ := bind_ok_iff.mp ok
      obtain ⟨rises, reaches⟩ := persist_durable codec settings batch persisted
      have stored : Safe (world.withIngress ingress) := ⟨rises _ safe.1, safe.2⟩
      cases boundary : batch.boundary with
      | none =>
          simp only [boundary] at ok
          exact Except.ok.inj ok ▸ stored
      | some end_ =>
          cases end_ with
          | commit commitLsn endLsn =>
              simp only [boundary] at ok
              have committed : Safe { world.withIngress ingress with persistedLsn := max world.persistedLsn endLsn } := by
                refine ⟨?_, tracked_raised safe.2 _ (Nat.le_max_left _ _)⟩
                rcases Nat.le_total world.persistedLsn endLsn with newer | older
                · rw [Nat.max_eq_right newer]
                  exact reaches commitLsn endLsn boundary
                · rw [Nat.max_eq_left older]
                  exact stored.1
              exact maintained_safe _ after (queue_safe _ committed) ok
          | abortTransaction abortLsn | abortSubtransaction sourceSubxid =>
              simp only [boundary] at ok
              exact Except.ok.inj ok ▸ stored
  | heartbeat now flush send => exact maintained_safe world after safe ok
  | replyRequested now flush send => exact maintained_safe world after safe ok
  | catalog call =>
      obtain ⟨catalog, called, ok⟩ := bind_ok_iff.mp ok
      cases ok
      exact ⟨catalog_call_rises rowCodec world.catalog catalog world.generation call called _ safe.1, safe.2⟩

-- A Runtime that has just read where its active generation stands.
def Opened (world : FeedbackWorld Payload Row) : Prop :=
  ∃ catalog replay now, catalog.ingress.activeReplay replay.slotGeneration = some replay ∧
    world = initializeFeedback catalog replay now

theorem opened_safe (world : FeedbackWorld Payload Row) (opened : Opened world) : Safe world := by
  obtain ⟨catalog, replay, now, active, rfl⟩ := opened
  refine ⟨⟨replay, active, Nat.le_refl _⟩, ⟨?_, ?_⟩, ?_, List.Pairwise.nil, ?_, ?_, ?_, ?_, rfl⟩
  · intro lsn persisted wrong
    cases wrong
  · intro lsn persisted wrong
    cases wrong
  · intro before lsn persisted after wrong
    exact absurd wrong.symm (List.append_ne_nil_of_right_ne_nil before (List.cons_ne_nil _ _))
  · intro lsn wrong
    cases wrong
  · intro lsn wrong
    cases wrong
  · intro lsn wrong
    cases wrong
  · intro lsn wrong
    cases wrong

-- `settled`: once nothing is pending or in flight, the newest position anybody
-- asked to report is the last one that came through. `answers`: only a flush
-- that reports WouldBlock stops the Runtime.
structure FeedbackExact (world : FeedbackWorld Payload Row) : Prop where
  handed : ∀ lsn persisted, FeedbackEvent.handed lsn persisted ∈ world.events → lsn ≤ persisted
  recorded : ∀ lsn persisted, FeedbackEvent.recorded lsn persisted ∈ world.events → lsn ≤ persisted
  increases : (recordedLsns world.events).Pairwise (· < ·)
  flushedFirst : ∀ before lsn persisted after, world.events = before ++ .recorded lsn persisted :: after → .flushed lsn ∈ before
  settled : world.feedback.pendingFeedback = none → world.feedback.queuedFeedback = none →
    (flushedLsns world.events).getLast? = (queuedLsns world.events).max?
  answers : ∀ now replyRequested flush send, world.feedback.queuedFeedback = none ∨ flush ≠ .wouldBlock →
    ∃ after, world.maintainFeedback now replyRequested flush send = .ok after

theorem feedback_safe [DecidableEq Payload] (codec : PayloadCodec Payload) (rowCodec : RowCodec Payload Row)
    (world : FeedbackWorld Payload Row) (reached : Reachable (feedbackStep codec rowCodec) Opened world) :
    FeedbackExact world := by
  have safe : Safe world := by
    apply reachable_invariant Safe opened_safe _ world reached
    intro state action after still taken
    exact feedback_step_safe still taken
  refine ⟨safe.2.never.handed, safe.2.never.recorded, safe.2.increases, safe.2.flushedFirst, ?_, ?_⟩
  · intro pending queued
    rw [safe.2.newest, pending, queued]
    rfl
  · intro now replyRequested flush send possible
    obtain ⟨after, made, _⟩ := maintain_feedback_safe world safe now replyRequested flush send possible
    exact ⟨after, made⟩

def startedFeedback : FeedbackWorld Nat Nat :=
  initializeFeedback (afterCalls numberPayload numberRow [firstGeneration]) (freshReplay ⟨"7", 1⟩ "shiba" 1 1) 0

-- A commit that arrives behind a status still in flight, and both get through.
def twoCommits (world : FeedbackWorld Nat Nat) : Except Fault (FeedbackWorld Nat Nat) := do
  let world ← feedbackStep numberPayload numberRow world
    (.persist anySource ⟨7, 10, [insertion 12 7 5 3], some (.commit 20 30)⟩ 0 .pendingFlush .pendingFlush)
  let world ← feedbackStep numberPayload numberRow world
    (.persist anySource ⟨8, 31, [insertion 32 8 5 4], some (.commit 40 50)⟩ 1 .pendingFlush .flushed)
  feedbackStep numberPayload numberRow world (.heartbeat 2 .flushed .flushed)

theorem feedback_safe_two_commits :
    ∃ world, twoCommits startedFeedback = .ok world ∧ FeedbackExact world ∧
      world.events = [.queued 30, .handed 30 30, .queued 50, .flushed 30, .recorded 30 50, .handed 50 50, .flushed 50,
        .recorded 50 50] := by
  have ends : (twoCommits startedFeedback).map FeedbackWorld.events =
      .ok [.queued 30, .handed 30 30, .queued 50, .flushed 30, .recorded 30 50, .handed 50 50, .flushed 50,
        .recorded 50 50] := by decide +kernel
  obtain ⟨world, made, events⟩ := except_map_ok ends
  refine ⟨world, made, ?_, events⟩
  apply feedback_safe numberPayload numberRow world
  unfold twoCommits at made
  obtain ⟨first, committed, made⟩ := bind_ok_iff.mp made
  obtain ⟨second, behind, made⟩ := bind_ok_iff.mp made
  refine .next second world _ (.next first second _ (.next startedFeedback first _ (.start _ ?_) committed) behind) made
  exact ⟨_, _, 0, by decide +kernel, rfl⟩

end Shiba.Runtime
