import Shiba.Join.Classify
import Shiba.Join.Scan

set_option autoImplicit false

namespace Shiba.Join

open Shiba.Execution

-- What a list of candidates comes to when nothing stops it: the progress past
-- all of them, every output and every state change.
structure Unsplit where
  progress : InputProgress
  actions : List OutputAction := []
  changes : List CandidateStateChange := []
deriving DecidableEq, Repr

def changeOf (expected : CandidateExpectation) : List CandidateStateChange :=
  if expected.oldCounts ≠ expected.newCounts then [⟨expected⟩] else []

def classifyUnsplit (mode : JoinMode) : List CandidateProbe → Unsplit → Except Fault Unsplit
  | [], state => .ok state
  | candidate :: rest, state => do
      let classified ← classifyCandidate mode state.progress.side state.progress.eventWeight candidate
      let progress ← state.progress.completeCandidate classified.expected
      classifyUnsplit mode rest
        ⟨progress, state.actions ++ classified.actions, state.changes ++ changeOf classified.expected⟩

-- The pages of one candidate list and what they did so far.
structure ScanState where
  continuation : JoinContinuation
  actions : List OutputAction := []
  changes : List CandidateStateChange := []
deriving DecidableEq, Repr

structure PageChoice where
  budget : WorkBudget
  count : Nat
  complete : Bool

-- WHERE row_id > candidate_after ORDER BY row_id.
def afterCursor (candidates : List CandidateProbe) (continuation : JoinContinuation) : List CandidateProbe :=
  candidates.filter fun candidate =>
    decide (((continuation.inputProgress.bind InputProgress.candidateAfter).getD 0) < candidate.rowId)

def nextPage (candidates : List CandidateProbe) (continuation : JoinContinuation) (choice : PageChoice) : ProbePage :=
  ⟨(afterCursor candidates continuation).take choice.count, choice.complete⟩

def pageStep (mode : JoinMode) (event : InputEventFacts) (candidates : List CandidateProbe) (state : ScanState)
    (choice : PageChoice) : Except Fault ScanState := do
  let plan ← planActions mode state.continuation event (nextPage candidates state.continuation choice) choice.budget
  return ⟨plan.next, state.actions ++ plan.actions, state.changes ++ plan.candidateChanges⟩

def inputBytesOf (candidates : List CandidateProbe) : Nat := (candidates.map CandidateProbe.rowBytes).sum

-- Any page the probe may cut for the budget: as many rows as fit, a single one
-- of any size, and the end of the list is only announced with the last row.
structure PageOffered (candidates : List CandidateProbe) (state : ScanState) (choice : PageChoice) : Prop where
  inputLimit : choice.budget.maxInputBytes ≤ bigintMax
  outputLimit : choice.budget.maxOutputRows ≤ bigintMax ∧ choice.budget.maxOutputBytes ≤ bigintMax
  rows : (nextPage candidates state.continuation choice).candidates.length ≤ choice.budget.maxInputRows
  bytes : inputBytesOf (nextPage candidates state.continuation choice).candidates ≤ choice.budget.maxInputBytes ∨
    (nextPage candidates state.continuation choice).candidates.length = 1
  ends : choice.complete = true → (afterCursor candidates state.continuation).length ≤ choice.count
  filled : (nextPage candidates state.continuation choice).candidates = [] → choice.complete = true

section Lists

variable (mode : JoinMode)

theorem classify_unsplit_append (first second : List CandidateProbe) (state : Unsplit) :
    classifyUnsplit mode (first ++ second) state =
      (classifyUnsplit mode first state >>= fun middle => classifyUnsplit mode second middle) := by
  induction first generalizing state with
  | nil => rfl
  | cons candidate rest ih =>
      rw [List.cons_append, classifyUnsplit, classifyUnsplit]
      cases classifyCandidate mode state.progress.side state.progress.eventWeight candidate with
      | error fault => rfl
      | ok classified =>
          simp only [ok_bind]
          cases state.progress.completeCandidate classified.expected with
          | error fault => rfl
          | ok progress => exact ih _

section

variable (candidates : List CandidateProbe) (state : Unsplit)

-- What was there before stays in front, and decides nothing.
theorem classify_unsplit_front (actions : List OutputAction) (changes : List CandidateStateChange) :
    classifyUnsplit mode candidates ⟨state.progress, actions ++ state.actions, changes ++ state.changes⟩ =
      (classifyUnsplit mode candidates state).map fun after =>
        ⟨after.progress, actions ++ after.actions, changes ++ after.changes⟩ := by
  induction candidates generalizing state with
  | nil => rfl
  | cons candidate rest ih =>
      rw [classifyUnsplit, classifyUnsplit]
      cases classifyCandidate mode state.progress.side state.progress.eventWeight candidate with
      | error fault => rfl
      | ok classified =>
          simp only [ok_bind]
          cases state.progress.completeCandidate classified.expected with
          | error fault => rfl
          | ok progress =>
              simp only [ok_bind, List.append_assoc]
              exact ih ⟨progress, _, _⟩

theorem classify_unsplit_shift (progress : InputProgress) (actions : List OutputAction) (changes : List CandidateStateChange) :
    classifyUnsplit mode candidates ⟨progress, actions, changes⟩ =
      (classifyUnsplit mode candidates ⟨progress, [], []⟩).map fun after =>
        ⟨after.progress, actions ++ after.actions, changes ++ after.changes⟩ := by
  have front := classify_unsplit_front mode candidates ⟨progress, [], []⟩ actions changes
  simpa only [List.append_nil] using front

theorem classify_unsplit_bare (after : Unsplit) (ok : classifyUnsplit mode candidates state = .ok after) :
    ∃ bare, classifyUnsplit mode candidates ⟨state.progress, [], []⟩ = .ok bare ∧
      after = ⟨bare.progress, state.actions ++ bare.actions, state.changes ++ bare.changes⟩ := by
  obtain ⟨bare, same, rfl⟩ := except_map_ok ((classify_unsplit_shift mode candidates _ _ _).symm.trans ok)
  exact ⟨bare, same, rfl⟩

end

theorem complete_candidate_frame {progress after : InputProgress} {expected : CandidateExpectation}
    (ok : progress.completeCandidate expected = .ok after) :
    after.positions = progress.positions ∧ after.side = progress.side ∧ after.eventWeight = progress.eventWeight ∧
      after.eventBytes = progress.eventBytes ∧ after.expectedOwn = progress.expectedOwn ∧
      after.candidateAfter = some expected.rowId ∧
      after.oppositeCounts = progress.oppositeCounts.add expected.truth expected.multiplicity ∧
      (progress.oppositeCounts.Fit → after.oppositeCounts.Fit) := by
  unfold InputProgress.completeCandidate at ok
  unfold MatchCounts.add MatchCounts.Fit
  cases truth : expected.truth with
  | false =>
      simp only [truth] at ok
      obtain rfl := Except.ok.inj ok
      exact ⟨rfl, rfl, rfl, rfl, rfl, rfl, rfl, id⟩
  | true =>
      simp only [truth] at ok
      obtain ⟨matched, summed, ok⟩ := bind_ok_iff.mp ok
      obtain rfl := Except.ok.inj ok
      obtain ⟨same, fits⟩ := count_sum_cases _ _ _ _ summed
      exact ⟨rfl, rfl, rfl, rfl, rfl, rfl, by rw [same], fun fit => ⟨fits, fit.2⟩⟩
  | unknown =>
      simp only [truth] at ok
      obtain ⟨unknown, summed, ok⟩ := bind_ok_iff.mp ok
      obtain rfl := Except.ok.inj ok
      obtain ⟨same, fits⟩ := count_sum_cases _ _ _ _ summed
      exact ⟨rfl, rfl, rfl, rfl, rfl, rfl, by rw [same], fun fit => ⟨fit.1, fits⟩⟩

end Lists

section Page

variable (mode : JoinMode) (side : InputSide) (weight : Int) (budget : WorkBudget)

-- The first candidate of `rest` has emitted its pair, and only that.
def Halted (pending : Option CandidateExpectation) (rest : List CandidateProbe) (pair : List OutputAction) : Prop :=
  match pending with
  | none => pair = []
  | some expected => ∃ candidate tail classified first second, rest = candidate :: tail ∧
      classifyCandidate mode side weight candidate = .ok classified ∧ classified.expected = expected ∧
      followsPair classified.actions = true ∧ classified.actions = [first, second] ∧ pair = [first]

theorem follows_two (actions : List OutputAction) (follows : followsPair actions = true) :
    ∃ first second, actions = [first, second] := by
  unfold followsPair at follows
  split at follows
  · exact ⟨_, _, rfl⟩
  · cases follows

-- By induction on the actions: a prefix of them is selected.
theorem select_shape (actions selected : List OutputAction) (rows bytes rows' bytes' : Nat)
    (ok : selectActions budget actions rows bytes = .ok (selected, rows', bytes')) :
    selected = actions.take selected.length := by
  induction actions generalizing rows bytes selected with
  | nil =>
      cases ok
      rfl
  | cons action rest ih =>
      rw [selectActions] at ok
      obtain ⟨fits, _, ok⟩ := bind_ok_iff.mp ok
      cases fits with
      | false =>
          cases ok
          rfl
      | true =>
          obtain ⟨nextRows, _, ok⟩ := bind_ok_iff.mp ok
          obtain ⟨nextBytes, _, ok⟩ := bind_ok_iff.mp ok
          obtain ⟨⟨later, lastRows, lastBytes⟩, chosen, ok⟩ := bind_ok_iff.mp ok
          cases ok
          exact congrArg (action :: ·) (ih _ _ _ chosen)

-- The first row always fits, so a page starts with an action if there is one.
theorem select_first {action : OutputAction} {rest selected : List OutputAction} {bytes rows' bytes' : Nat}
    (ok : selectActions budget (action :: rest) 0 bytes = .ok (selected, rows', bytes')) : selected ≠ [] := by
  rw [selectActions] at ok
  obtain ⟨fits, decided, ok⟩ := bind_ok_iff.mp ok
  have free : fits = true := by
    unfold actionFits at decided
    obtain ⟨_, _, decided⟩ := bind_ok_iff.mp decided
    obtain ⟨nextRows, one, decided⟩ := bind_ok_iff.mp decided
    obtain ⟨_, one⟩ := refuse_bind_ok.mp one
    obtain rfl := Except.ok.inj one
    have positive := budget.outputRowsPositive
    rw [if_neg (by omega)] at decided
    obtain ⟨_, _, decided⟩ := bind_ok_iff.mp decided
    exact (Except.ok.inj decided).symm
  subst free
  obtain ⟨_, _, ok⟩ := bind_ok_iff.mp ok
  obtain ⟨_, _, ok⟩ := bind_ok_iff.mp ok
  obtain ⟨_, _, ok⟩ := bind_ok_iff.mp ok
  cases ok
  exact List.cons_ne_nil _ _

-- What a page's loop that did not fail has done: `done` completely, and perhaps
-- the first action of what follows.
structure PageDone (pending : Option CandidateExpectation) (page : List CandidateProbe) (pair : List OutputAction)
    (before after : PageProgress) (done rest : List CandidateProbe) (unsplit : Unsplit) (later : List OutputAction) : Prop where
  split : page = done ++ rest
  classified : classifyUnsplit mode done ⟨before.progress, [], []⟩ = .ok unsplit
  progress : after.progress = unsplit.progress
  changes : after.changes = before.changes ++ unsplit.changes
  actions : ∃ selected, after.actions = before.actions ++ selected ∧ pair ++ selected = unsplit.actions ++ later
  completed : after.completed = rest.isEmpty
  halted : Halted mode side weight after.nextPending rest later
  moved : before.outputRows = 0 → page ≠ [] → done = [] → pair ≠ later

variable (state after : PageProgress) {pair : List OutputAction} {pending : Option CandidateExpectation}

theorem resume_shape {candidate : CandidateProbe} {tail : List CandidateProbe} {classified : Classified} {first : Nat}
    (read : classifyCandidate mode side weight candidate = .ok classified)
    (halted : Halted mode side weight pending (candidate :: tail) pair) (ok : resumeAt pending classified = .ok first) :
    first = pair.length ∧ pair = classified.actions.take first := by
  cases pending with
  | none =>
      have nothing : pair = [] := halted
      cases ok
      exact ⟨by rw [nothing]; rfl, nothing⟩
  | some expected =>
      obtain ⟨head, rest, other, one, two, same, again, _, _, both, isPair⟩ := halted
      obtain ⟨rfl, rfl⟩ := List.cons.inj same
      obtain rfl := Except.ok.inj (read.symm.trans again)
      have ok := past_check (past_check ok)
      cases ok
      rw [isPair, both]
      exact ⟨rfl, rfl⟩

theorem stop_shape (candidate : CandidateProbe) (tail : List CandidateProbe) (classified : Classified) (emitted : Nat)
    (read : classifyCandidate mode side weight candidate = .ok classified) (idle : state.nextPending = none)
    (ok : state.stop classified emitted = .ok after) :
    after.progress = state.progress ∧ after.changes = state.changes ∧ after.actions = state.actions ∧
      after.completed = false ∧
      Halted mode side weight after.nextPending (candidate :: tail) (classified.actions.take emitted) := by
  unfold PageProgress.stop at ok
  by_cases moved : 0 < emitted
  · rw [if_pos moved] at ok
    obtain ⟨resumable, ok⟩ := refuse_bind_ok.mp ok
    obtain rfl := Except.ok.inj ok
    rw [Bool.or_eq_false_iff, decide_eq_false_iff_not, not_not, Bool.not_eq_false'] at resumable
    obtain ⟨rfl, follows⟩ := resumable
    obtain ⟨first, second, both⟩ := follows_two classified.actions follows
    refine ⟨rfl, rfl, rfl, rfl, candidate, tail, classified, first, second, rfl, read, rfl, follows, both, ?_⟩
    rw [both]
    rfl
  · rw [if_neg moved] at ok
    obtain rfl := Except.ok.inj ok
    have zero : emitted = 0 := Nat.eq_zero_of_not_pos moved
    refine ⟨rfl, rfl, rfl, rfl, ?_⟩
    change Halted mode side weight state.nextPending _ _
    rw [idle, zero]
    rfl

theorem process_shape (page : List CandidateProbe) (pending : Option CandidateExpectation) (pair : List OutputAction)
    (before after : PageProgress) (sided : before.progress.side = side) (weighed : before.progress.eventWeight = weight)
    (running : before.completed = true) (idle : before.nextPending = none) (halted : Halted mode side weight pending page pair)
    (ok : processCandidates mode budget pending page before = .ok after) :
    ∃ done rest unsplit later, PageDone mode side weight pending page pair before after done rest unsplit later := by
  induction page generalizing pending pair before with
  | nil =>
      have quiet : pair = [] := by
        cases pending with
        | none => exact halted
        | some expected =>
            obtain ⟨_, _, _, _, _, wrong, _⟩ := halted
            cases wrong
      cases ok
      refine ⟨[], [], ⟨after.progress, [], []⟩, [], rfl, rfl, rfl, (List.append_nil _).symm,
        ⟨[], (List.append_nil _).symm, by rw [quiet]⟩, running, ?_, fun _ filled => absurd rfl filled⟩
      rw [idle]
      rfl
  | cons candidate tail ih =>
      rw [processCandidates, sided, weighed] at ok
      obtain ⟨classified, read, ok⟩ := bind_ok_iff.mp ok
      obtain ⟨first, resumed, ok⟩ := bind_ok_iff.mp ok
      obtain ⟨⟨selected, rows, bytes⟩, chosen, ok⟩ := bind_ok_iff.mp ok
      obtain ⟨counted, taken⟩ := resume_shape mode side weight read halted resumed
      have picked := select_shape budget _ _ _ _ _ _ chosen
      have emitted : pair ++ selected = classified.actions.take (first + selected.length) := by
        rw [List.take_add, ← taken, ← picked]
      by_cases short : selected.length ≠ classified.actions.length - first
      · simp only [if_pos short] at ok
        obtain ⟨progress, changes, actions, completed, stopped⟩ :=
          stop_shape mode side weight (before.emit selected rows bytes) after candidate tail classified _ read idle ok
        refine ⟨[], candidate :: tail, ⟨before.progress, [], []⟩, _, rfl, rfl, progress, ?_, ⟨selected, actions, ?_⟩, completed,
          stopped, ?_⟩
        · exact changes.trans (List.append_nil _).symm
        · exact emitted
        · intro fresh _ _ same
          have nothing : selected = [] := by
            rw [← emitted] at same
            exact List.append_right_eq_self.mp same.symm
          cases later : classified.actions.drop first with
          | nil =>
              have length := congrArg List.length later
              rw [List.length_drop, List.length_nil] at length
              rw [nothing] at short
              exact short length.symm
          | cons action rest =>
              rw [later, fresh] at chosen
              exact select_first budget chosen nothing
      · simp only [if_neg short] at ok
        obtain ⟨next, completes, ok⟩ := bind_ok_iff.mp ok
        obtain ⟨progress, passed, completes⟩ := bind_ok_iff.mp completes
        obtain rfl := Except.ok.inj completes
        have frame := complete_candidate_frame passed
        obtain ⟨done, rest, unsplit, later, ends⟩ := ih none [] _ (frame.2.1.trans sided) (frame.2.2.1.trans weighed)
          (by exact running) (by exact idle) rfl ok
        obtain ⟨more, appended, whole⟩ := ends.actions
        have all : pair ++ selected = classified.actions := by
          rw [emitted]
          apply List.take_of_length_le
          have listed : classified.actions.take first = pair := taken.symm
          have length := congrArg List.length listed
          rw [List.length_take] at length
          omega
        refine ⟨candidate :: done, rest,
          ⟨unsplit.progress, classified.actions ++ unsplit.actions, changeOf classified.expected ++ unsplit.changes⟩, later,
          ?_, ?_, ends.progress, ?_, ⟨selected ++ more, ?_, ?_⟩, ends.completed, ends.halted, ?_⟩
        · rw [ends.split]
          rfl
        · rw [classifyUnsplit]
          simp only [sided, weighed, read, ok_bind]
          have passes : before.progress.completeCandidate classified.expected = .ok progress := passed
          simp only [passes, ok_bind, List.nil_append]
          rw [classify_unsplit_shift, ends.classified]
          rfl
        · rw [ends.changes]
          exact List.append_assoc _ _ _
        · rw [appended]
          exact List.append_assoc _ _ _
        · rw [← List.append_assoc, all, List.append_assoc, ← whole]
          rfl
        · intro _ _ wrong
          exact absurd wrong (List.cons_ne_nil _ _)

theorem next_shape (rest : List CandidateProbe) (later : List OutputAction) (complete : Bool) (next : JoinContinuation)
    (completed : state.completed = rest.isEmpty) (halted : Halted mode side weight state.nextPending rest later)
    (ok : state.nextContinuation complete = .ok next) :
    next = scanNext state.nextPending state.progress (rest.isEmpty && complete) := by
  unfold PageProgress.nextContinuation at ok
  cases pending : state.nextPending with
  | none =>
      rw [pending] at ok
      simp only [completed] at ok
      unfold scanNext scanAt
      split at ok <;> rename_i ends <;> cases ok
      · rw [if_pos ends]
      · rw [if_neg ends]
  | some expected =>
      rw [pending] at ok halted
      obtain ⟨_, _, ok⟩ := bind_ok_iff.mp ok
      obtain ⟨candidate, tail, _, _, _, rfl, _⟩ := halted
      cases ok
      rfl

-- A page that was accepted, in terms of the list it was cut from.
structure PlanDone (progress : InputProgress) (page : List CandidateProbe) (complete : Bool) (pair : List OutputAction)
    (plan : ActionPlan) (pending : Option CandidateExpectation) (done rest : List CandidateProbe) (unsplit : Unsplit)
    (later : List OutputAction) : Prop where
  split : page = done ++ rest
  classified : classifyUnsplit mode done ⟨progress, [], []⟩ = .ok unsplit
  changes : plan.candidateChanges = unsplit.changes
  actions : pair ++ plan.actions = unsplit.actions ++ later
  halted : Halted mode side weight pending rest later
  moved : page ≠ [] → done = [] → pair ≠ later
  next : plan.next = scanNext pending unsplit.progress (rest.isEmpty && complete)

theorem plan_shape {event : InputEventFacts} {progress : InputProgress} {page : List CandidateProbe} {complete : Bool}
    {plan : ActionPlan} (sided : progress.side = side) (weighed : progress.eventWeight = weight)
    (halted : Halted mode side weight pending page pair)
    (ok : planActions mode (scanAt pending progress) event ⟨page, complete⟩ budget = .ok plan) :
    ∃ later done rest unsplit emitted,
      PlanDone mode side weight progress page complete pair plan later done rest unsplit emitted := by
  unfold planActions at ok
  obtain ⟨_, _, ok⟩ := bind_ok_iff.mp ok
  obtain ⟨⟨scanned, resumed⟩, same, ok⟩ := bind_ok_iff.mp ok
  have parts : scanned = progress ∧ resumed = pending := by
    cases pending <;> exact ⟨congrArg Prod.fst (Except.ok.inj same).symm, congrArg Prod.snd (Except.ok.inj same).symm⟩
  rw [parts.1, parts.2] at ok
  have ok := past_check (past_check ok)
  obtain ⟨inputBytes, _, ok⟩ := bind_ok_iff.mp ok
  obtain ⟨_, _, ok⟩ := bind_ok_iff.mp ok
  obtain ⟨state, processed, ok⟩ := bind_ok_iff.mp ok
  have ok := past_check (past_check ok)
  obtain ⟨next, continued, ok⟩ := bind_ok_iff.mp ok
  obtain ⟨_, _, ok⟩ := bind_ok_iff.mp ok
  obtain rfl := Except.ok.inj ok
  obtain ⟨done, rest, unsplit, later, ends⟩ := process_shape mode side weight budget page pending pair
    { progress := progress } state sided weighed rfl rfl halted processed
  obtain ⟨selected, actions, whole⟩ := ends.actions
  refine ⟨state.nextPending, done, rest, unsplit, later, ends.split, ends.classified, ends.changes, ?_, ends.halted,
    ends.moved rfl, ?_⟩
  · rw [show state.actions = selected from actions]
    exact whole
  · rw [← ends.progress]
    exact next_shape mode side weight state rest later complete next ends.completed ends.halted continued

end Page

end Shiba.Join
