import Shiba.Join.Prefix

set_option autoImplicit false

namespace Shiba.Join

open Shiba.Execution

section

variable {Row : Type} (spec : JoinSpec Row) (side : InputSide) (row : Row) (weight : Int)

-- The rows among `entries` that make the condition what `truth` says, with their multiplicities.
def gathered (truth : MatchTruth) (entries : List (Entry Row)) : Nat :=
  (entries.map fun entry => if entry.truth spec side row = truth then entry.multiplicity else 0).sum

def InputProgress.pastAll (progress : InputProgress) (entries : List (Entry Row)) : InputProgress :=
  entries.foldl (fun progress entry => progress.past spec side row entry) progress

theorem gathered_cons (truth : MatchTruth) (entry : Entry Row) (entries : List (Entry Row)) :
    gathered spec side row truth (entry :: entries) =
      (if entry.truth spec side row = truth then entry.multiplicity else 0) + gathered spec side row truth entries := by
  simp [gathered]

theorem past_counts (progress : InputProgress) (entry : Entry Row) :
    (progress.past spec side row entry).oppositeCounts.matched = progress.oppositeCounts.matched +
        (if entry.truth spec side row = .true then entry.multiplicity else 0) ∧
      (progress.past spec side row entry).oppositeCounts.unknown = progress.oppositeCounts.unknown +
        (if entry.truth spec side row = .unknown then entry.multiplicity else 0) := by
  unfold InputProgress.past MatchCounts.add
  cases truth : entry.truth spec side row <;> simp

section

variable (state : PageProgress) (entries : List (Entry Row))

theorem past_all_counts (progress : InputProgress) :
    (progress.pastAll spec side row entries).oppositeCounts.matched =
        progress.oppositeCounts.matched + gathered spec side row .true entries ∧
      (progress.pastAll spec side row entries).oppositeCounts.unknown =
        progress.oppositeCounts.unknown + gathered spec side row .unknown entries := by
  induction entries generalizing progress with
  | nil => exact ⟨rfl, rfl⟩
  | cons entry entries ih =>
      obtain ⟨matched, unknown⟩ := past_counts spec side row progress entry
      obtain ⟨laterMatched, laterUnknown⟩ := ih (progress.past spec side row entry)
      rw [InputProgress.pastAll, List.foldl_cons, gathered_cons, gathered_cons]
      unfold InputProgress.pastAll at laterMatched laterUnknown
      rw [laterMatched, laterUnknown, matched, unknown]
      exact ⟨Nat.add_assoc _ _ _, Nat.add_assoc _ _ _⟩

theorem past_all_frame (progress : InputProgress) :
    (progress.pastAll spec side row entries).positions = progress.positions ∧
      (progress.pastAll spec side row entries).side = progress.side ∧
      (progress.pastAll spec side row entries).eventWeight = progress.eventWeight ∧
      (progress.pastAll spec side row entries).eventBytes = progress.eventBytes ∧
      (progress.pastAll spec side row entries).expectedOwn = progress.expectedOwn := by
  induction entries generalizing progress with
  | nil => exact ⟨rfl, rfl, rfl, rfl, rfl⟩
  | cons entry entries ih => exact ih (progress.past spec side row entry)

-- The pair a pending candidate has emitted already.
def begun (pending : Option CandidateExpectation) (entries : List (Entry Row)) : List OutputAction :=
  match pending, entries with
  | some _, entry :: _ => [pairAction spec side row weight entry]
  | _, _ => []

def changesOf (entries : List (Entry Row)) : List CandidateStateChange :=
  (entries.map (expectationOf spec side row weight)).filterMap fun expected =>
    if expected.oldCounts ≠ expected.newCounts then some ⟨expected⟩ else none

-- A pending candidate is the first one of the page, with both of its actions.
def Resumes (pending : Option CandidateExpectation) (entries : List (Entry Row)) : Prop :=
  ∀ expected, pending = some expected → ∃ entry rest, entries = entry :: rest ∧
    expected = expectationOf spec side row weight entry ∧ Matches spec side row entry ∧ Flips spec side row weight entry

def InputProgress.Room (progress : InputProgress) (entries : List (Entry Row)) : Prop :=
  progress.oppositeCounts.matched + gathered spec side row .true entries ≤ bigintMax ∧
    progress.oppositeCounts.unknown + gathered spec side row .unknown entries ≤ bigintMax

structure Processed (budget : WorkBudget) (pending : Option CandidateExpectation) (page : List (Entry Row))
    (before after : PageProgress) (done rest : List (Entry Row)) : Prop where
  split : page = done ++ rest
  emitted : ∃ selected, after.actions = before.actions ++ selected ∧
    begun spec side row weight pending page ++ selected =
      done.flatMap (candidateActions spec side row weight) ++ begun spec side row weight after.nextPending rest
  changed : after.changes = before.changes ++ changesOf spec side row weight done
  advanced : after.progress = before.progress.pastAll spec side row done
  within : Within budget after.outputRows after.outputBytes
  completed : after.completed = rest.isEmpty
  resumes : Resumes spec side row weight after.nextPending rest

theorem room_head {progress : InputProgress} {entry : Entry Row} {rest : List (Entry Row)}
    (room : progress.Room spec side row (entry :: rest)) :
    (progress.oppositeCounts.add (entry.truth spec side row) entry.multiplicity).Fit ∧
      (progress.past spec side row entry).Room spec side row rest := by
  unfold InputProgress.Room at room
  rw [gathered_cons, gathered_cons] at room
  obtain ⟨matched, unknown⟩ := past_counts spec side row progress entry
  have fits : (progress.past spec side row entry).oppositeCounts.Fit := by
    unfold MatchCounts.Fit
    omega
  exact ⟨fits, by unfold InputProgress.Room; omega⟩

theorem resume_ok (pending : Option CandidateExpectation) (entry : Entry Row) (rest : List (Entry Row))
    (resumes : Resumes spec side row weight pending (entry :: rest)) :
    resumeAt pending { expected := expectationOf spec side row weight entry
                       actions := candidateActions spec side row weight entry } =
        .ok (begun spec side row weight pending (entry :: rest)).length ∧
      (begun spec side row weight pending (entry :: rest)) ++ (candidateActions spec side row weight entry).drop
        (begun spec side row weight pending (entry :: rest)).length = candidateActions spec side row weight entry := by
  cases pending with
  | none => exact ⟨rfl, rfl⟩
  | some expected =>
      obtain ⟨other, tail, same, known, hit, flips⟩ := resumes expected rfl
      obtain ⟨rfl, rfl⟩ := List.cons.inj same
      have both := candidate_pair_first spec side row weight entry hit flips
      have follows : followsPair (candidateActions spec side row weight entry) = true := by rw [both]; rfl
      subst known
      constructor
      · rw [resumeAt]
        simp only [follows, ne_eq, not_true_eq_false, decide_false, Bool.not_true]
        rfl
      · rw [both]
        rfl

theorem stop_ok (entry : Entry Row) (rest : List (Entry Row)) (emitted : Nat)
    (short : emitted < (candidateActions spec side row weight entry).length) :
    ∃ pending, state.stop { expected := expectationOf spec side row weight entry
                            actions := candidateActions spec side row weight entry } emitted =
        .ok { state with completed := false, nextPending := if 0 < emitted then pending else state.nextPending } ∧
      (0 < emitted → (candidateActions spec side row weight entry).take emitted =
        begun spec side row weight pending (entry :: rest) ∧
          Resumes spec side row weight pending (entry :: rest)) := by
  have two := candidate_length spec side row weight entry
  refine ⟨some (expectationOf spec side row weight entry), ?_, ?_⟩
  · unfold PageProgress.stop
    by_cases moved : 0 < emitted
    · have one : emitted = 1 := by omega
      obtain ⟨hit, flips⟩ := candidate_both spec side row weight entry (by omega)
      have follows : followsPair (candidateActions spec side row weight entry) = true := by
        rw [candidate_pair_first spec side row weight entry hit flips]
        rfl
      rw [if_pos moved, if_pos moved]
      simp only [one, follows, ne_eq, not_true_eq_false, decide_false, Bool.not_true, Bool.or_false]
      rfl
    · rw [if_neg moved, if_neg moved]
      rfl
  · intro moved
    have one : emitted = 1 := by omega
    obtain ⟨hit, flips⟩ := candidate_both spec side row weight entry (by omega)
    constructor
    · rw [one, candidate_pair_first spec side row weight entry hit flips]
      rfl
    · intro expected same
      exact ⟨entry, rest, rfl, (Option.some.inj same).symm, hit, flips⟩

theorem complete_ok (entry : Entry Row) (rest : List (Entry Row)) (room : state.progress.Room spec side row (entry :: rest)) :
    state.complete { expected := expectationOf spec side row weight entry
                     actions := candidateActions spec side row weight entry } =
      .ok { state with
            changes := state.changes ++ changesOf spec side row weight [entry]
            progress := state.progress.past spec side row entry } := by
  have fits := (room_head spec side row room).1
  rw [PageProgress.complete]
  simp only [complete_candidate_ok spec side row weight state.progress entry fits, ok_bind]
  unfold changesOf
  by_cases moved : (expectationOf spec side row weight entry).oldCounts ≠ (expectationOf spec side row weight entry).newCounts
  · simp only [List.map_cons, List.map_nil, List.filterMap_cons, List.filterMap_nil, if_pos moved]
    rfl
  · simp only [List.map_cons, List.map_nil, List.filterMap_cons, List.filterMap_nil, if_neg moved]
    rfl

end

-- What the loop knows before a candidate.
structure Running (budget : WorkBudget) (page : List (Entry Row)) (state : PageProgress) : Prop where
  sided : state.progress.side = side
  weighed : state.progress.eventWeight = weight
  room : state.progress.Room spec side row page
  within : Within budget state.outputRows state.outputBytes
  running : state.completed = true
  idle : state.nextPending = none

-- One candidate ends the page, or it is completed and the page goes on behind it.
theorem candidate_step {budget : WorkBudget} (bounded : Bounded budget) (present : weight ≠ 0) {entry : Entry Row}
    {tail : List (Entry Row)} {pending : Option CandidateExpectation} {state : PageProgress}
    (meetable : Meetable spec side row weight entry) (resumes : Resumes spec side row weight pending (entry :: tail))
    (ready : Running spec side row weight budget (entry :: tail) state) :
    (∃ after, processCandidates spec.mode budget pending ((entry :: tail).map (candidateProbe spec side row weight)) state =
        .ok after ∧ Processed spec side row weight budget pending (entry :: tail) state after [] (entry :: tail)) ∨
      ∃ next selected, processCandidates spec.mode budget pending
          ((entry :: tail).map (candidateProbe spec side row weight)) state =
            processCandidates spec.mode budget none (tail.map (candidateProbe spec side row weight)) next ∧
        Running spec side row weight budget tail next ∧ next.progress = state.progress.past spec side row entry ∧
        next.changes = state.changes ++ changesOf spec side row weight [entry] ∧ next.actions = state.actions ++ selected ∧
        begun spec side row weight pending (entry :: tail) ++ selected = candidateActions spec side row weight entry := by
  obtain ⟨sided, weighed, room, within, running, idle⟩ := ready
  obtain ⟨resumed, whole⟩ := resume_ok spec side row weight pending entry tail resumes
  have classified := classify_ok spec side row entry present meetable
  have sound := candidate_sound spec side row weight entry present meetable
  generalize first : begun spec side row weight pending (entry :: tail) = emitted at resumed whole ⊢
  generalize behind : (candidateActions spec side row weight entry).drop emitted.length = later at whole
  have length : emitted.length + later.length = (candidateActions spec side row weight entry).length := by
    rw [← whole, List.length_append]
  obtain ⟨count, rows, bytes, selected, inside, next⟩ := select_ok budget bounded later state.outputRows state.outputBytes
    (fun action member => sound action (by rw [← whole]; exact List.mem_append_right _ member)) within
  have taken : (later.take count).length = count := by
    rw [List.length_take]
    omega
  have step : processCandidates spec.mode budget pending ((entry :: tail).map (candidateProbe spec side row weight)) state =
      if (later.take count).length ≠ (candidateActions spec side row weight entry).length - emitted.length then
        (state.emit (later.take count) rows bytes).stop
          { expected := expectationOf spec side row weight entry, actions := candidateActions spec side row weight entry }
          (emitted.length + (later.take count).length)
      else
        (state.emit (later.take count) rows bytes).complete
          { expected := expectationOf spec side row weight entry
            actions := candidateActions spec side row weight entry } >>= fun state =>
          processCandidates spec.mode budget none (tail.map (candidateProbe spec side row weight)) state := by
    rw [List.map_cons, processCandidates, sided, weighed, classified, ok_bind, resumed, ok_bind]
    simp only [behind, selected, ok_bind]
  rw [step, taken]
  by_cases stops : count ≠ (candidateActions spec side row weight entry).length - emitted.length
  · apply Or.inl
    obtain ⟨stopped, halted, boundary⟩ := stop_ok spec side row weight (state.emit (later.take count) rows bytes) entry tail
      (emitted.length + count) (by omega)
    rw [if_pos stops, halted]
    refine ⟨_, rfl, ⟨rfl, ⟨later.take count, rfl, ?_⟩, (List.append_nil _).symm, rfl, next, rfl, ?_⟩⟩
    · by_cases moved : 0 < emitted.length + count
      · rw [if_pos moved, ← (boundary moved).1, ← whole, List.take_append, first]
        simp
      · have nothing : emitted = [] := List.length_eq_zero_iff.mp (by omega)
        have zero : count = 0 := by omega
        rw [if_neg moved, first, nothing, zero]
        change _ = _ ++ begun spec side row weight state.nextPending (entry :: tail)
        rw [idle]
        rfl
    · by_cases moved : 0 < emitted.length + count
      · rw [if_pos moved]
        exact (boundary moved).2
      · rw [if_neg moved]
        intro expected same
        rw [show (state.emit (later.take count) rows bytes).nextPending = none from idle] at same
        cases same
  · apply Or.inr
    have all : later.take count = later := List.take_of_length_le (by omega)
    rw [if_neg stops, complete_ok spec side row weight (state.emit (later.take count) rows bytes) entry tail room, ok_bind]
    have done := past_all_frame spec side row [entry] state.progress
    refine ⟨_, later, rfl, ⟨?_, ?_, (room_head spec side row room).2, next, running, idle⟩, rfl, rfl, ?_, whole⟩
    · exact done.2.1.trans sided
    · exact done.2.2.1.trans weighed
    · rw [all]
      rfl

theorem changes_cons (entry : Entry Row) (entries : List (Entry Row)) :
    changesOf spec side row weight (entry :: entries) =
      changesOf spec side row weight [entry] ++ changesOf spec side row weight entries := by
  unfold changesOf
  rw [← List.filterMap_append, ← List.map_append]
  rfl

-- By induction on the page: it is done up to some candidate, whose pair may be emitted.
theorem process_ok (budget : WorkBudget) (bounded : Bounded budget) (present : weight ≠ 0) (page : List (Entry Row))
    (pending : Option CandidateExpectation) (state : PageProgress)
    (meetable : ∀ entry ∈ page, Meetable spec side row weight entry) (resumes : Resumes spec side row weight pending page)
    (ready : Running spec side row weight budget page state) :
    ∃ after done rest, processCandidates spec.mode budget pending
        (page.map (candidateProbe spec side row weight)) state = .ok after ∧
      Processed spec side row weight budget pending page state after done rest := by
  induction page generalizing pending state with
  | nil =>
      have quiet : begun spec side row weight pending ([] : List (Entry Row)) = [] := by
        cases pending with
        | none => rfl
        | some expected =>
            obtain ⟨_, _, empty, _⟩ := resumes expected rfl
            cases empty
      refine ⟨state, [], [], by cases pending <;> rfl,
        ⟨rfl, ⟨[], (List.append_nil _).symm, ?_⟩, (List.append_nil _).symm, rfl, ready.within, ready.running, ?_⟩⟩
      · rw [quiet, ready.idle]
        rfl
      · intro expected same
        rw [ready.idle] at same
        cases same
  | cons entry tail ih =>
      rcases candidate_step spec side row weight bounded present (meetable entry List.mem_cons_self) resumes ready with
        ⟨after, ended, processed⟩ | ⟨next, selected, goes, running, moved, changed, appended, whole⟩
      · exact ⟨after, [], entry :: tail, ended, processed⟩
      · obtain ⟨after, done, rest, ended, processed⟩ := ih none next
          (fun other member => meetable other (List.mem_cons_of_mem _ member)) (fun _ same => by cases same) running
        obtain ⟨more, emitted, later⟩ := processed.emitted
        refine ⟨after, entry :: done, rest, goes.trans ended, ⟨?_, ⟨selected ++ more, ?_, ?_⟩, ?_, ?_, processed.within,
          processed.completed, processed.resumes⟩⟩
        · rw [processed.split]
          rfl
        · rw [emitted, appended, List.append_assoc]
        · rw [← List.append_assoc, whole, List.flatMap_cons, List.append_assoc, ← later]
          rfl
        · rw [processed.changed, changed, List.append_assoc, ← changes_cons]
        · rw [processed.advanced, moved]
          rfl

end

end Shiba.Join
