import Shiba.Join.Paging

set_option autoImplicit false

namespace Shiba.Join

open Shiba.Execution

-- Sizes as PostgreSQL measures them, in bigint.
structure CandidateProbe.Measured (candidate : CandidateProbe) : Prop where
  row : candidate.rowBytes ≤ bigintMax
  outputs : ∀ size ∈ candidate.sizes, size ≤ bigintMax

section

variable {mode : JoinMode} {side : InputSide} {weight : Int} (budget : WorkBudget)

theorem read_sound (candidate : CandidateProbe) (classified : Classified) (measured : candidate.Measured)
    (read : classifyCandidate mode side weight candidate = .ok classified) (action : OutputAction)
    (member : action ∈ classified.actions) : action.Sound := by
  obtain ⟨valid, sized⟩ := (classify_reads side read).actions action member
  exact ⟨valid, measured.outputs _ sized⟩

variable {complete : Bool} (state : PageProgress) {event : InputEventFacts} {classified : Classified}
  {page : List CandidateProbe} {pair : List OutputAction} {pending : Option CandidateExpectation}
  (rest candidates : List CandidateProbe)

theorem resume_total {candidate : CandidateProbe} {tail : List CandidateProbe}
    (read : classifyCandidate mode side weight candidate = .ok classified)
    (halted : Halted mode side weight pending (candidate :: tail) pair) :
    ∃ first, resumeAt pending classified = .ok first := by
  cases pending with
  | none => exact ⟨0, rfl⟩
  | some expected =>
      obtain ⟨head, rest, other, one, two, same, again, known, follows, _⟩ := halted
      obtain ⟨rfl, rfl⟩ := List.cons.inj same
      obtain rfl := Except.ok.inj (read.symm.trans again)
      refine ⟨1, refuse_bind_ok.mpr ⟨decide_eq_false (not_not.mpr known), ?_⟩⟩
      exact refuse_bind_ok.mpr ⟨by rw [follows]; rfl, rfl⟩

theorem stop_total (candidate : CandidateProbe) (classified : Classified) (emitted : Nat)
    (read : classifyCandidate mode side weight candidate = .ok classified) (short : emitted < classified.actions.length) :
    ∃ after, state.stop classified emitted = .ok after ∧ after.outputRows = state.outputRows ∧
      after.outputBytes = state.outputBytes := by
  have reads := classify_reads side read
  unfold PageProgress.stop
  by_cases moved : 0 < emitted
  · have few := reads.few
    have follows := (reads.both (by omega)).1
    have one : emitted = 1 := by omega
    rw [if_pos moved]
    refine ⟨_, refuse_bind_ok.mpr ⟨?_, rfl⟩, rfl, rfl⟩
    rw [follows, one]
    rfl
  · rw [if_neg moved]
    exact ⟨_, rfl, rfl, rfl⟩

-- By induction on the page: what the unsplit list can do, a page of it can do.
theorem process_total (bounded : Bounded budget) (page : List CandidateProbe) (pending : Option CandidateExpectation)
    (pair : List OutputAction) (before : PageProgress) (whole : Unsplit) (sided : before.progress.side = side)
    (weighed : before.progress.eventWeight = weight) (idle : before.nextPending = none)
    (halted : Halted mode side weight pending page pair) (within : Within budget before.outputRows before.outputBytes)
    (measured : ∀ candidate ∈ page, candidate.Measured)
    (classified : classifyUnsplit mode page ⟨before.progress, [], []⟩ = .ok whole) :
    ∃ after, processCandidates mode budget pending page before = .ok after ∧
      Within budget after.outputRows after.outputBytes := by
  induction page generalizing pending pair before whole with
  | nil => exact ⟨before, by cases pending <;> rfl, within⟩
  | cons candidate tail ih =>
      rw [classifyUnsplit] at classified
      obtain ⟨known, read, classified⟩ := bind_ok_iff.mp classified
      obtain ⟨passed, completes, classified⟩ := bind_ok_iff.mp classified
      simp only [sided, weighed] at read
      obtain ⟨first, resumed⟩ := resume_total read halted
      have sound := read_sound candidate known (measured candidate List.mem_cons_self) read
      obtain ⟨count, rows, bytes, selected, inside, next⟩ := select_ok budget bounded (known.actions.drop first)
        before.outputRows before.outputBytes (fun action member => sound action (List.mem_of_mem_drop member)) within
      have length : ((known.actions.drop first).take count).length = count := by
        rw [List.length_take]
        omega
      rw [List.length_drop] at inside
      rw [processCandidates]
      simp only [sided, weighed, read, ok_bind, resumed, selected, length]
      by_cases short : count ≠ known.actions.length - first
      · rw [if_pos short]
        obtain ⟨after, stopped, sameRows, sameBytes⟩ := stop_total (before.emit _ rows bytes) candidate known
          (first + count) read (by omega)
        refine ⟨after, stopped, ?_⟩
        rw [sameRows, sameBytes]
        exact next
      · rw [if_neg short]
        have frame := complete_candidate_frame completes
        unfold PageProgress.complete
        have passes : (before.emit ((known.actions.drop first).take count) rows bytes).progress.completeCandidate
            known.expected = .ok passed := completes
        simp only [passes, ok_bind]
        obtain ⟨others, shifted, _⟩ := classify_unsplit_bare mode tail _ _ classified
        exact ih none [] _ others (frame.2.1.trans sided) (frame.2.2.1.trans weighed) (by exact idle) rfl (by exact next)
          (fun other member => measured other (List.mem_cons_of_mem _ member)) shifted

theorem sum_row_bytes_total (total : Nat) (fits : total + inputBytesOf candidates ≤ u64Max) :
    sumRowBytes candidates total = .ok (total + inputBytesOf candidates) := by
  induction candidates generalizing total with
  | nil => rfl
  | cons candidate rest ih =>
      have cut : inputBytesOf (candidate :: rest) = candidate.rowBytes + inputBytesOf rest := rfl
      rw [cut, ← Nat.add_assoc] at fits ⊢
      rw [sumRowBytes, checked_u64_ok _ _ _ (by omega), ok_bind, ih _ fits]

theorem keyset_total (after : Option Int) (rising : candidates.Pairwise fun first second => first.rowId < second.rowId)
    (ahead : ∀ candidate ∈ candidates, ∀ rowId, after = some rowId → rowId < candidate.rowId)
    (valid : ∀ candidate ∈ candidates, candidate.validate = .ok ()) : validateKeysetOrder after candidates = .ok () := by
  induction candidates generalizing after with
  | nil => rfl
  | cons candidate rest ih =>
      obtain ⟨below, later⟩ := List.pairwise_cons.mp rising
      have follows := follows_ok after candidate.rowId (ahead candidate List.mem_cons_self)
      rw [validateKeysetOrder, valid candidate List.mem_cons_self, ok_bind, refuse_false follows, ok_bind]
      refine ih (some candidate.rowId) later ?_ fun other member => valid other (List.mem_cons_of_mem _ member)
      intro other member rowId same
      rw [← Option.some.inj same]
      exact below other member

theorem page_order_total {progress : InputProgress} (halted : Halted mode side weight pending page pair)
    (rising : page.Pairwise fun first second => first.rowId < second.rowId)
    (ahead : ∀ candidate ∈ page, ∀ rowId, progress.candidateAfter = some rowId → rowId < candidate.rowId)
    (valid : ∀ candidate ∈ page, candidate.validate = .ok ()) (filled : page = [] → complete = true) :
    validateProbePageOrder progress pending ⟨page, complete⟩ = .ok () := by
  cases pending with
  | none =>
      cases page with
      | nil => exact refuse_false (by rw [filled rfl]; rfl) _
      | cons candidate rest => exact keyset_total (candidate :: rest) progress.candidateAfter rising ahead valid
  | some expected =>
      obtain ⟨candidate, tail, classified, _, _, rfl, read, rfl, _⟩ := halted
      obtain ⟨below, later⟩ := List.pairwise_cons.mp rising
      have named : classified.expected.rowId = candidate.rowId := by
        rw [(classify_reads side read).expected]
      have follows := follows_ok progress.candidateAfter candidate.rowId (ahead candidate List.mem_cons_self)
      simp only [validateProbePageOrder]
      rw [valid candidate List.mem_cons_self, ok_bind, refuse_false (decide_eq_false (not_not.mpr named.symm)), ok_bind,
        refuse_false follows, ok_bind]
      refine keyset_total tail (some candidate.rowId) later ?_ fun other member => valid other (List.mem_cons_of_mem _ member)
      intro other member rowId same
      rw [← Option.some.inj same]
      exact below other member

theorem signed_count_cases (base : Nat) (delta : Int) (name : String) (result : Nat)
    (ok : checkedSignedCount base delta name = .ok result) (other : String) : checkedSignedCount base delta other = .ok result := by
  unfold checkedSignedCount validateCount at ok ⊢
  obtain ⟨_, known, ok⟩ := bind_ok_iff.mp ok
  obtain ⟨inside, ok⟩ := refuse_bind_ok.mp ok
  refine bind_ok_iff.mpr ⟨(), refuse_false (refuse_ok.mp known) _, ?_⟩
  exact refuse_bind_ok.mpr ⟨inside, ok⟩

theorem pending_total {progress : InputProgress} {candidate : CandidateProbe} (valid : progress.validate = .ok ())
    (weighed : progress.eventWeight = weight) (read : classifyCandidate mode side weight candidate = .ok classified)
    (two : classified.actions.length = 2) (ahead : ∀ rowId, progress.candidateAfter = some rowId → rowId < candidate.rowId) :
    validatePendingCandidate progress classified.expected = .ok () := by
  have reads := classify_reads side read
  have hit := (reads.both two).2
  have expected := reads.expected
  have counted := reads.counted
  unfold applyMatchDelta at counted
  obtain ⟨_, _, counted⟩ := bind_ok_iff.mp counted
  rw [hit] at counted
  obtain ⟨matched, summed, counted⟩ := bind_ok_iff.mp counted
  have counts : { candidate.oldCounts with matched := matched } = classified.expected.newCounts := Except.ok.inj counted
  have truth : classified.expected.truth = .true := by rw [expected]; exact hit
  have old : classified.expected.oldCounts = candidate.oldCounts := by rw [expected]
  have named : classified.expected.rowId = candidate.rowId := by rw [expected]
  have moved : checkedSignedCount classified.expected.oldCounts.matched progress.eventWeight
      "pending Join candidate matched count" = .ok matched := by
    rw [old, weighed]
    exact signed_count_cases _ _ _ _ summed _
  have same : (decide (classified.expected.newCounts.matched ≠ matched) ||
      decide (classified.expected.newCounts.unknown ≠ classified.expected.oldCounts.unknown)) = false := by
    rw [← counts, old]
    simp
  have follows := follows_ok progress.candidateAfter classified.expected.rowId (by rw [named]; exact ahead)
  rw [validatePendingCandidate, valid, ok_bind, reads.checked, ok_bind, refuse_false (decide_eq_false (not_not.mpr truth)),
    ok_bind, moved, ok_bind, refuse_false same, ok_bind, refuse_false follows]

-- Everything an unsplit list emits and changes passes its own check.
theorem unsplit_valid (progress : InputProgress) (unsplit : Unsplit)
    (ok : classifyUnsplit mode candidates ⟨progress, [], []⟩ = .ok unsplit) :
    (∀ action ∈ unsplit.actions, action.validate = .ok ()) ∧ ∀ change ∈ unsplit.changes, change.validate = .ok () := by
  induction candidates generalizing progress unsplit with
  | nil =>
      cases ok
      constructor
      · intro action wrong
        cases wrong
      · intro change wrong
        cases wrong
  | cons candidate rest ih =>
      rw [classifyUnsplit] at ok
      obtain ⟨classified, read, ok⟩ := bind_ok_iff.mp ok
      obtain ⟨passed, _, ok⟩ := bind_ok_iff.mp ok
      obtain ⟨others, classifies, rfl⟩ := classify_unsplit_bare mode rest _ _ ok
      obtain ⟨actions, changes⟩ := ih passed others classifies
      have reads := classify_reads _ read
      constructor
      · intro action member
        rcases List.mem_append.mp member with here | later
        · exact (reads.actions action here).1
        · exact actions action later
      · intro change member
        rcases List.mem_append.mp member with here | later
        · change change ∈ changeOf classified.expected at here
          unfold changeOf at here
          split at here
          · rename_i moved
            obtain rfl := List.mem_singleton.mp here
            rw [CandidateStateChange.validate, reads.checked, ok_bind]
            exact refuse_false (decide_eq_false moved) _
          · cases here
        · exact changes change later

theorem unsplit_frame (state : Unsplit) {after : Unsplit} (ok : classifyUnsplit mode candidates state = .ok after) :
    after.progress.positions = state.progress.positions ∧ after.progress.side = state.progress.side ∧
      after.progress.eventWeight = state.progress.eventWeight ∧ after.progress.eventBytes = state.progress.eventBytes ∧
      after.progress.expectedOwn = state.progress.expectedOwn ∧
      (state.progress.oppositeCounts.Fit → after.progress.oppositeCounts.Fit) ∧
      after.progress.candidateAfter = (candidates.getLast?.map CandidateProbe.rowId).or state.progress.candidateAfter := by
  induction candidates generalizing state with
  | nil =>
      cases ok
      exact ⟨rfl, rfl, rfl, rfl, rfl, id, rfl⟩
  | cons candidate rest ih =>
      rw [classifyUnsplit] at ok
      obtain ⟨classified, read, ok⟩ := bind_ok_iff.mp ok
      obtain ⟨passed, completes, ok⟩ := bind_ok_iff.mp ok
      obtain ⟨placed, sided, weighed, sized, owned, cursor, _, fits⟩ := complete_candidate_frame completes
      obtain ⟨laterPlaced, laterSided, laterWeighed, laterSized, laterOwned, laterFits, laterCursor⟩ := ih _ ok
      refine ⟨laterPlaced.trans placed, laterSided.trans sided, laterWeighed.trans weighed, laterSized.trans sized,
        laterOwned.trans owned, fun fit => laterFits (fits fit), ?_⟩
      have named : classified.expected.rowId = candidate.rowId := by
        rw [(classify_reads _ read).expected]
      rw [laterCursor]
      change (rest.getLast?.map CandidateProbe.rowId).or passed.candidateAfter = _
      rw [cursor, named]
      cases rest with
      | nil => rfl
      | cons next others => rw [List.getLast?_cons_cons]; simp [List.getLast?_cons]

theorem unsplit_underway {candidates : List CandidateProbe} {state after : Unsplit}
    (underway : Underway event state.progress) (valid : ∀ candidate ∈ candidates, candidate.validate = .ok ())
    (ok : classifyUnsplit mode candidates state = .ok after) : Underway event after.progress := by
  obtain ⟨placed, sided, weighed, sized, owned, fits, cursor⟩ := unsplit_frame candidates state ok
  refine ⟨underway.valid, placed.trans underway.placed, sided.trans underway.sided, weighed.trans underway.weighed,
    sized.trans underway.sized, by rw [owned]; exact underway.owned, ?_, fits underway.counted⟩
  intro rowId same
  rw [cursor] at same
  cases last : candidates.getLast? with
  | none =>
      rw [last] at same
      exact underway.identified rowId same
  | some candidate =>
      rw [last] at same
      obtain rfl := Option.some.inj same
      exact (candidate_parts (valid candidate (List.mem_of_getLast? last))).1

theorem halted_valid (pending : Option CandidateExpectation) (rest : List CandidateProbe) (pair : List OutputAction)
    (halted : Halted mode side weight pending rest pair) : ∀ action ∈ pair, action.validate = .ok () := by
  intro action member
  cases pending with
  | none =>
      have nothing : pair = [] := halted
      rw [nothing] at member
      cases member
  | some expected =>
      obtain ⟨candidate, tail, known, one, two, _, read, _, _, both, rfl⟩ := halted
      obtain rfl := List.mem_singleton.mp member
      refine ((classify_reads side read).actions action ?_).1
      rw [both]
      exact List.mem_cons_self

-- Whatever is left of an ascending page lies behind the cursor of what is done.
theorem done_ahead (done rest : List CandidateProbe) (progress : InputProgress) (unsplit : Unsplit)
    (ok : classifyUnsplit mode done ⟨progress, [], []⟩ = .ok unsplit)
    (rising : (done ++ rest).Pairwise fun first second => first.rowId < second.rowId)
    (ahead : ∀ candidate ∈ rest, ∀ rowId, progress.candidateAfter = some rowId → rowId < candidate.rowId) :
    ∀ candidate ∈ rest, ∀ rowId, unsplit.progress.candidateAfter = some rowId → rowId < candidate.rowId := by
  intro candidate member rowId same
  obtain ⟨_, _, _, _, _, _, cursor⟩ := unsplit_frame done ⟨progress, [], []⟩ ok
  rw [cursor] at same
  cases last : done.getLast? with
  | none =>
      rw [last] at same
      exact ahead candidate member rowId same
  | some other =>
      rw [last] at same
      obtain rfl := Option.some.inj same
      exact (List.pairwise_append.mp rising).2.2 other (List.mem_of_getLast? last) candidate member

theorem next_total (later : List OutputAction) (complete : Bool) (valid : state.progress.validate = .ok ())
    (weighed : state.progress.eventWeight = weight) (halted : Halted mode side weight state.nextPending rest later)
    (ahead : ∀ candidate ∈ rest, ∀ rowId, state.progress.candidateAfter = some rowId → rowId < candidate.rowId) :
    ∃ next, state.nextContinuation complete = .ok next := by
  unfold PageProgress.nextContinuation
  cases stopped : state.nextPending with
  | none =>
      simp only
      split
      · exact ⟨_, rfl⟩
      · exact ⟨_, rfl⟩
  | some expected =>
      rw [stopped] at halted
      obtain ⟨candidate, tail, known, one, two, rfl, read, rfl, _, both, _⟩ := halted
      have waits := pending_total valid weighed read (by rw [both]; rfl) (ahead candidate List.mem_cons_self)
      exact ⟨_, bind_ok_iff.mpr ⟨(), waits, rfl⟩⟩

-- A page the probe can offer is accepted when the candidates on it can be
-- classified at all.
theorem plan_total (bounded : Bounded budget) {progress : InputProgress} {whole : Unsplit}
    (underway : Underway event progress) (sided : progress.side = side) (weighed : progress.eventWeight = weight)
    (halted : Halted mode side weight pending page pair)
    (rising : page.Pairwise fun first second => first.rowId < second.rowId)
    (ahead : ∀ candidate ∈ page, ∀ rowId, progress.candidateAfter = some rowId → rowId < candidate.rowId)
    (valid : ∀ candidate ∈ page, candidate.validate = .ok ()) (measured : ∀ candidate ∈ page, candidate.Measured)
    (rows : page.length ≤ budget.maxInputRows) (bytes : inputBytesOf page ≤ budget.maxInputBytes ∨ page.length = 1)
    (filled : page = [] → complete = true) (classified : classifyUnsplit mode page ⟨progress, [], []⟩ = .ok whole) :
    ∃ plan, planActions mode (scanAt pending progress) event ⟨page, complete⟩ budget = .ok plan := by
  have resumed : (scanAt pending progress).validateInputResume event = .ok () := by
    cases pending <;> exact underway_resume underway
  have ordered := page_order_total halted rising ahead valid filled
  have representable : inputBytesOf page ≤ bigintMax := by
    rcases bytes with small | single
    · exact Nat.le_trans small bounded.inputBytes
    · obtain ⟨candidate, rfl⟩ := List.length_eq_one_iff.mp single
      exact (measured candidate (List.mem_singleton.mpr rfl)).row
  have small : bigintMax ≤ u64Max := by decide
  have summed := sum_row_bytes_total page 0 (by omega)
  rw [Nat.zero_add] at summed
  obtain ⟨state, processed, within⟩ := process_total budget bounded page pending pair
    { progress := progress } whole sided weighed rfl halted
    ⟨Nat.zero_le _, .inl (Nat.zero_le _), Nat.zero_le _, fun _ => rfl⟩ measured classified
  obtain ⟨done, rest, unsplit, later, ends⟩ := process_shape mode side weight budget page pending pair
    { progress := progress } state sided weighed rfl rfl halted processed
  obtain ⟨selected, actions, emitted⟩ := ends.actions
  obtain ⟨doneActions, doneChanges⟩ := unsplit_valid done progress unsplit ends.classified
  have actionsValid : validateAll OutputAction.validate state.actions = .ok () := by
    apply validate_all_ok
    intro action member
    rw [show state.actions = selected from actions] at member
    have listed : action ∈ unsplit.actions ++ later := by
      rw [← emitted]
      exact List.mem_append_right _ member
    rcases List.mem_append.mp listed with inDone | part
    · exact doneActions action inDone
    · exact halted_valid _ rest later ends.halted action part
  have changesValid : validateAll CandidateStateChange.validate state.changes = .ok () := by
    apply validate_all_ok
    intro change member
    rw [show state.changes = unsplit.changes from ends.changes] at member
    exact doneChanges change member
  have still : Underway event unsplit.progress := by
    refine unsplit_underway underway ?_ ends.classified
    intro other member
    exact valid other (by rw [ends.split]; exact List.mem_append_left _ member)
  have behind := done_ahead done rest progress unsplit ends.classified (ends.split ▸ rising) fun candidate member =>
    ahead candidate (by rw [ends.split]; exact List.mem_append_right _ member)
  obtain ⟨next, continued⟩ := next_total state rest later complete
    (by rw [ends.progress]; exact underway_valid event _ still)
    (by rw [ends.progress]; exact (unsplit_frame done _ ends.classified).2.2.1.trans weighed) ends.halted
    (by rw [ends.progress]; exact behind)
  have probed : WorkUsage.validate { inputRows := page.length, inputBytes := inputBytesOf page } budget = .ok () :=
    usage_ok rows bytes (Nat.zero_le _) (.inl (Nat.zero_le _))
  have used : WorkUsage.validate { inputRows := page.length, inputBytes := inputBytesOf page, outputRows := state.outputRows
                                   outputBytes := state.outputBytes } budget = .ok () :=
    usage_ok rows bytes within.rowLimit within.byteLimit
  refine ⟨{ budget := budget, actions := state.actions, candidateChanges := state.changes, next := next
            usage := { inputRows := page.length, inputBytes := inputBytesOf page, outputRows := state.outputRows
                       outputBytes := state.outputBytes } }, ?_⟩
  unfold planActions
  rw [resumed, ok_bind]
  cases pending <;>
  · simp only [scanAt]
    change (progress.validate >>= _) = _
    rw [underway_valid event progress underway, ok_bind, ordered, ok_bind, summed, ok_bind, probed, ok_bind, processed,
      ok_bind, actionsValid, ok_bind, changesValid, ok_bind, continued, ok_bind, used, ok_bind]
    rfl

end

end Shiba.Join
