import Shiba.Join.PageAccepted

set_option autoImplicit false

namespace Shiba.Join

open Shiba.Execution Transition

-- The multiplicities of the candidates that make the condition what `truth` says.
def multiplicityOf (truth : MatchTruth) (candidates : List CandidateProbe) : Nat :=
  (candidates.map fun candidate => if candidate.truth = truth then candidate.multiplicity else 0).sum

-- Two for each candidate behind the cursor, one less once the first has emitted
-- its pair, and the page that finds the end.
def pagesLeft (candidates : List CandidateProbe) (continuation : JoinContinuation) : Nat :=
  match continuation with
  | .probe _ => 2 * (afterCursor candidates continuation).length + 2
  | .pendingTransition _ _ => 2 * (afterCursor candidates continuation).length + 1
  | .preflight _ _ | .finalize _ | .frontier _ => 0

theorem unsplit_counts (mode : JoinMode) (candidates : List CandidateProbe) (state after : Unsplit)
    (ok : classifyUnsplit mode candidates state = .ok after) :
    after.progress.oppositeCounts.matched = state.progress.oppositeCounts.matched + multiplicityOf .true candidates ∧
      after.progress.oppositeCounts.unknown = state.progress.oppositeCounts.unknown + multiplicityOf .unknown candidates := by
  induction candidates generalizing state with
  | nil =>
      cases ok
      exact ⟨rfl, rfl⟩
  | cons candidate rest ih =>
      rw [classifyUnsplit] at ok
      obtain ⟨classified, read, ok⟩ := bind_ok_iff.mp ok
      obtain ⟨passed, completes, ok⟩ := bind_ok_iff.mp ok
      obtain ⟨matched, unknown⟩ := ih _ ok
      obtain ⟨_, _, _, _, _, _, counts, _⟩ := complete_candidate_frame completes
      rw [(classify_reads _ read).expected] at counts
      rw [matched, unknown]
      change passed.oppositeCounts.matched + _ = _ ∧ passed.oppositeCounts.unknown + _ = _
      rw [counts]
      unfold MatchCounts.add multiplicityOf
      cases truth : candidate.truth <;> simp [truth, Nat.add_assoc]

section Run

variable (mode : JoinMode) (event : InputEventFacts) (own : OwnExpectation) (candidates : List CandidateProbe)

-- Where a run of pages stands in the list: `done` is classified, and the first
-- of `rest` may have emitted its pair.
structure Tracks (state : ScanState) (pending : Option CandidateExpectation) (done rest : List CandidateProbe)
    (unsplit : Unsplit) (pair : List OutputAction) : Prop where
  split : candidates = done ++ rest
  classified : classifyUnsplit mode done ⟨.fromEvent event own, [], []⟩ = .ok unsplit
  actions : state.actions = unsplit.actions ++ pair
  changes : state.changes = unsplit.changes
  halted : Halted mode event.side event.weight pending rest pair
  continuation : state.continuation = scanAt pending unsplit.progress ∨
    rest = [] ∧ state.continuation = .finalize unsplit.progress

def Scanning (state : ScanState) : Prop :=
  ∃ pending done rest unsplit pair, Tracks mode event own candidates state pending done rest unsplit pair

variable {mode event candidates}

section

variable (pending : Option CandidateExpectation) (progress : InputProgress)

theorem scan_at_progress :
    (scanAt pending progress).inputProgress = some progress := by
  cases pending <;> rfl

theorem pages_left_scan :
    pagesLeft candidates (scanAt pending progress) =
      2 * (afterCursor candidates (scanAt pending progress)).length + (if pending = none then 2 else 1) := by
  cases pending <;> rfl

end

section

variable {weight : Int} {pair : List OutputAction} {side : InputSide} {pending : Option CandidateExpectation}

-- A page that completes no candidate has emitted the pair of the first one.
theorem halted_moves {next : Option CandidateExpectation} {page left : List CandidateProbe}
    {later emitted : List OutputAction} (before : Halted mode side weight pending page pair)
    (after : Halted mode side weight next left later) (same : pair ++ emitted = later) (moved : pair ≠ later) :
    pending = none ∧ next ≠ none := by
  have grown : emitted ≠ [] := by
    rintro rfl
    exact moved (by rw [← same, List.append_nil])
  have length := congrArg List.length same
  rw [List.length_append] at length
  have positive := List.length_pos_of_ne_nil grown
  cases next with
  | none =>
      rw [show later = [] from after, List.length_nil] at length
      omega
  | some expected =>
      obtain ⟨_, _, _, _, _, _, _, _, _, _, rfl⟩ := after
      cases pending with
      | none => exact ⟨rfl, Option.some_ne_none _⟩
      | some other =>
          obtain ⟨_, _, _, _, _, _, _, _, _, _, rfl⟩ := before
          simp only [List.length_singleton] at length
          omega

theorem halted_part {first : List CandidateProbe} (second : List CandidateProbe)
    (halted : Halted mode side weight pending first pair) :
    Halted mode side weight pending (first ++ second) pair := by
  cases pending with
  | none => exact halted
  | some expected =>
      obtain ⟨candidate, tail, known, one, two, rfl, rest⟩ := halted
      exact ⟨candidate, tail ++ second, known, one, two, rfl, rest⟩

theorem halted_take {rest : List CandidateProbe} {count : Nat} (halted : Halted mode side weight pending rest pair)
    (filled : rest ≠ [] → 0 < count) : Halted mode side weight pending (rest.take count) pair := by
  cases pending with
  | none => exact halted
  | some expected =>
      obtain ⟨candidate, tail, known, one, two, rfl, others⟩ := halted
      have positive := filled (List.cons_ne_nil _ _)
      obtain ⟨less, rfl⟩ := Nat.exists_eq_succ_of_ne_zero (Nat.ne_of_gt positive)
      exact ⟨candidate, tail.take less, known, one, two, rfl, others⟩

end

variable (rising : candidates.Pairwise fun first second => first.rowId < second.rowId)
  (valid : ∀ candidate ∈ candidates, candidate.validate = .ok ())

include rising valid

variable {pair : List OutputAction} {state : ScanState} {unsplit : Unsplit} {choice : PageChoice}
  {pending : Option CandidateExpectation}

variable {done rest : List CandidateProbe}

-- The probe's cursor finds exactly what is not done.
theorem after_cursor_rest (pending : Option CandidateExpectation) (split : candidates = done ++ rest)
    (ok : classifyUnsplit mode done ⟨.fromEvent event own, [], []⟩ = .ok unsplit) :
    afterCursor candidates (scanAt pending unsplit.progress) = rest := by
  obtain ⟨_, _, _, _, _, _, cursor⟩ := unsplit_frame done _ ok
  have ids : ∀ candidate ∈ candidates, 0 < candidate.rowId := fun candidate member =>
    (candidate_parts (valid candidate member)).1
  unfold afterCursor
  rw [scan_at_progress, Option.bind_some, cursor, split, List.filter_append]
  rw [split] at rising ids
  obtain ⟨inDone, _, across⟩ := List.pairwise_append.mp rising
  cases last : done.getLast? with
  | none =>
      rw [List.getLast?_eq_none_iff.mp last, List.filter_nil, List.nil_append]
      apply List.filter_eq_self.mpr
      intro candidate member
      exact decide_eq_true (ids candidate (List.mem_append_right _ member))
  | some final =>
      obtain ⟨before, isLast⟩ := List.getLast?_eq_some_iff.mp last
      have none_ : done.filter (fun candidate => decide (final.rowId < candidate.rowId)) = [] := by
        apply List.filter_eq_nil_iff.mpr
        intro candidate member ahead
        have greater := of_decide_eq_true ahead
        rw [isLast] at member inDone
        rcases List.mem_append.mp member with early | same
        · have order := (List.pairwise_append.mp inDone).2.2 candidate early final (List.mem_singleton.mpr rfl)
          omega
        · rw [List.mem_singleton.mp same] at greater
          omega
      have all : rest.filter (fun candidate => decide (final.rowId < candidate.rowId)) = rest := by
        apply List.filter_eq_self.mpr
        intro candidate member
        exact decide_eq_true (across final (List.mem_of_getLast? last) candidate member)
      change done.filter (fun candidate => decide (final.rowId < candidate.rowId)) ++
        rest.filter (fun candidate => decide (final.rowId < candidate.rowId)) = rest
      rw [none_, all, List.nil_append]

theorem offered_page (split : candidates = done ++ rest)
    (ok : classifyUnsplit mode done ⟨.fromEvent event own, [], []⟩ = .ok unsplit)
    (scans : state.continuation = scanAt pending unsplit.progress) (offered : PageOffered candidates state choice) :
    nextPage candidates state.continuation choice = ⟨rest.take choice.count, choice.complete⟩ ∧
      (choice.complete = true → rest.length ≤ choice.count) ∧ (rest.take choice.count = [] → choice.complete = true) ∧
      (rest ≠ [] → 0 < choice.count) := by
  have behind := after_cursor_rest own rising valid pending split ok
  have page : nextPage candidates state.continuation choice = ⟨rest.take choice.count, choice.complete⟩ := by
    unfold nextPage
    rw [scans, behind]
  have ends := offered.ends
  rw [scans, behind] at ends
  have filled := offered.filled
  rw [page] at filled
  refine ⟨page, ends, filled, ?_⟩
  intro present
  apply Nat.pos_of_ne_zero
  intro zero
  have whole := ends (filled (by rw [zero]; rfl))
  exact present (List.length_eq_zero_iff.mp (by omega))

theorem tracks_step {after : ScanState} (tracks : Tracks mode event own candidates state pending done rest unsplit pair)
    (scans : state.continuation = scanAt pending unsplit.progress) (offered : PageOffered candidates state choice)
    (ok : pageStep mode event candidates state choice = .ok after) :
    Scanning mode event own candidates after ∧ pagesLeft candidates after.continuation < pagesLeft candidates state.continuation := by
  obtain ⟨page, whole, filled, positive⟩ := offered_page own rising valid tracks.split tracks.classified scans offered
  obtain ⟨plan, planned, ok⟩ := bind_ok_iff.mp ok
  obtain rfl := Except.ok.inj ok
  rw [page, scans] at planned
  have frame := unsplit_frame done _ tracks.classified
  have halted := halted_take tracks.halted positive
  obtain ⟨next, passed, left, more, later, plans⟩ := plan_shape mode event.side event.weight choice.budget frame.2.1 frame.2.2.1 halted planned
  have rest_ : rest = passed ++ (left ++ rest.drop choice.count) := by
    rw [← List.append_assoc, ← plans.split, List.take_append_drop]
  have split : candidates = (done ++ passed) ++ (left ++ rest.drop choice.count) := by
    rw [tracks.split, List.append_assoc, ← rest_]
  have classified : classifyUnsplit mode (done ++ passed) ⟨.fromEvent event own, [], []⟩ =
      .ok ⟨more.progress, unsplit.actions ++ more.actions, unsplit.changes ++ more.changes⟩ := by
    rw [classify_unsplit_append, tracks.classified, ok_bind, classify_unsplit_shift, plans.classified]
    rfl
  have continuation : plan.next = scanAt next more.progress ∨
      left ++ rest.drop choice.count = [] ∧ plan.next = .finalize more.progress := by
    rw [plans.next]
    unfold scanNext
    split
    · rename_i final
      rw [Bool.and_eq_true, List.isEmpty_iff] at final
      refine .inr ⟨?_, rfl⟩
      rw [final.1, List.nil_append]
      exact List.drop_eq_nil_of_le (whole final.2)
    · exact .inl rfl
  refine ⟨⟨next, done ++ passed, left ++ rest.drop choice.count, _, later, split, classified, ?_, ?_, ?_, continuation⟩, ?_⟩
  · rw [tracks.actions, List.append_assoc, plans.actions, List.append_assoc]
  · rw [tracks.changes, plans.changes]
  · exact halted_part _ plans.halted
  · have before := after_cursor_rest own rising valid pending tracks.split tracks.classified
    have now := after_cursor_rest own rising valid next split classified
    rcases continuation with again | ⟨_, final⟩
    · rw [again, scans, pages_left_scan, pages_left_scan, before, now]
      have size := congrArg List.length rest_
      rw [List.length_append] at size
      have open_ : left = [] → choice.complete = false := by
        intro done_
        cases final : choice.complete with
        | false => rfl
        | true =>
            have ends := plans.next
            rw [again, done_, final] at ends
            exact absurd ends (scan_at_open next _ _)
      cases passed with
      | cons candidate others =>
          rw [List.length_cons] at size
          split <;> split <;> omega
      | nil =>
          have nothing : more.actions = [] := by
            have bare := plans.classified
            cases bare
            rfl
          have page_ : rest.take choice.count ≠ [] := by
            intro empty
            have left_ : left = [] := by rw [← empty, plans.split, List.nil_append]
            rw [filled empty] at open_
            exact Bool.noConfusion (open_ left_)
          have emitted := plans.actions
          rw [nothing, List.nil_append] at emitted
          obtain ⟨idle, waits⟩ := halted_moves halted plans.halted emitted (plans.moved page_ rfl)
          rw [List.length_nil] at size
          rw [if_pos idle, if_neg waits]
          omega
    · rw [final, scans]
      unfold pagesLeft
      cases pending <;> simp only [scanAt] <;> omega

theorem scanning_step {after : ScanState} (scanning : Scanning mode event own candidates state)
    (offered : PageOffered candidates state choice) (ok : pageStep mode event candidates state choice = .ok after) :
    Scanning mode event own candidates after ∧ pagesLeft candidates after.continuation < pagesLeft candidates state.continuation := by
  obtain ⟨pending, done, rest, unsplit, pair, tracks⟩ := scanning
  rcases tracks.continuation with scans | ⟨_, final⟩
  · exact tracks_step own rising valid tracks scans offered ok
  · obtain ⟨plan, planned, _⟩ := bind_ok_iff.mp ok
    rw [final] at planned
    obtain ⟨_, _, planned⟩ := bind_ok_iff.mp planned
    obtain ⟨_, wrong, _⟩ := bind_ok_iff.mp planned
    cases wrong

theorem scanning_total {start : JoinContinuation} {whole : Unsplit}
    (started : JoinContinuation.startInput event own = .ok start) (measured : ∀ candidate ∈ candidates, candidate.Measured)
    (classified : classifyUnsplit mode candidates ⟨.fromEvent event own, [], []⟩ = .ok whole)
    (tracks : Tracks mode event own candidates state pending done rest unsplit pair)
    (scans : state.continuation = scanAt pending unsplit.progress) (offered : PageOffered candidates state choice) :
    ∃ after, pageStep mode event candidates state choice = .ok after := by
  obtain ⟨page, _, filled, positive⟩ := offered_page own rising valid tracks.split tracks.classified scans offered
  have rows := offered.rows
  have bytes := offered.bytes
  rw [page] at rows bytes
  have frame := unsplit_frame done _ tracks.classified
  have first : Underway event (InputProgress.fromEvent event own) := by
    obtain ⟨_, checked, started⟩ := bind_ok_iff.mp started
    obtain ⟨_, owned, _⟩ := bind_ok_iff.mp started
    exact ⟨checked, rfl, rfl, rfl, rfl, owned, (fun _ wrong => by cases wrong), ⟨Nat.zero_le _, Nat.zero_le _⟩⟩
  have inList : ∀ candidate ∈ rest, candidate ∈ candidates := fun candidate member => by
    rw [tracks.split]
    exact List.mem_append_right _ member
  have underway : Underway event unsplit.progress := by
    refine unsplit_underway first ?_ tracks.classified
    intro candidate member
    exact valid candidate (by rw [tracks.split]; exact List.mem_append_left _ member)
  have ahead := done_ahead done rest _ unsplit tracks.classified (tracks.split ▸ rising)
    fun candidate _ rowId wrong => by cases wrong
  have ordered : (rest.take choice.count).Pairwise fun first second => first.rowId < second.rowId := by
    have both := rising
    rw [tracks.split] at both
    exact (List.pairwise_append.mp both).2.1.sublist (List.take_sublist _ _)
  obtain ⟨part, divided⟩ : ∃ part, classifyUnsplit mode (rest.take choice.count) ⟨unsplit.progress, [], []⟩ = .ok part := by
    rw [tracks.split, ← List.take_append_drop choice.count rest, classify_unsplit_append, tracks.classified, ok_bind,
      classify_unsplit_append] at classified
    obtain ⟨middle, taken, _⟩ := bind_ok_iff.mp classified
    obtain ⟨part, bare, _⟩ := classify_unsplit_bare mode _ _ _ taken
    exact ⟨part, bare⟩
  obtain ⟨plan, planned⟩ := plan_total choice.budget ⟨offered.inputLimit, offered.outputLimit.1, offered.outputLimit.2⟩
    underway frame.2.1 frame.2.2.1 (halted_take tracks.halted positive)
    ordered (fun candidate member => ahead candidate (List.mem_of_mem_take member))
    (fun candidate member => valid candidate (inList candidate (List.mem_of_mem_take member)))
    (fun candidate member => measured candidate (inList candidate (List.mem_of_mem_take member))) rows bytes filled divided
  refine ⟨_, bind_ok_iff.mpr ⟨plan, ?_, rfl⟩⟩
  rw [page, scans]
  exact planned

end Run

def startScan (event : InputEventFacts) (own : OwnExpectation) : ScanState := ⟨.probe (.fromEvent event own), [], []⟩

-- `result`: a run that arrives has the result of the unsplit list, once and in
-- order. `ends`: however pages and budgets are chosen, no page is refused and
-- the run arrives, where the unsplit list has a result. `offers`: every budget
-- has a page.
structure PagingInvisible (mode : JoinMode) (event : InputEventFacts) (own : OwnExpectation)
    (candidates : List CandidateProbe) : Prop where
  result : ∀ state final, Path (pageStep mode event candidates) (PageOffered candidates) (startScan event own) state →
    state.continuation = .finalize final →
      classifyUnsplit mode candidates ⟨.fromEvent event own, [], []⟩ = .ok ⟨final, state.actions, state.changes⟩ ∧
      final.oppositeCounts = ⟨multiplicityOf .true candidates, multiplicityOf .unknown candidates⟩
  moves : ∀ state choice after, Path (pageStep mode event candidates) (PageOffered candidates) (startScan event own) state →
    PageOffered candidates state choice → pageStep mode event candidates state choice = .ok after →
      pagesLeft candidates after.continuation < pagesLeft candidates state.continuation
  ends : ∀ whole, classifyUnsplit mode candidates ⟨.fromEvent event own, [], []⟩ = .ok whole →
    (∀ candidate ∈ candidates, candidate.Measured) →
      Ends (pageStep mode event candidates) (PageOffered candidates)
        (fun state => state = ⟨.finalize whole.progress, whole.actions, whole.changes⟩) (startScan event own)
  offers : ∀ state budget, Bounded budget → ∃ choice, choice.budget = budget ∧ PageOffered candidates state choice

section Whole

variable (mode : JoinMode) (event : InputEventFacts) (own : OwnExpectation) (candidates : List CandidateProbe)

theorem start_scanning : Scanning mode event own candidates (startScan event own) :=
  ⟨none, [], candidates, ⟨.fromEvent event own, [], []⟩, [], rfl, rfl, rfl, rfl, rfl, .inl rfl⟩

theorem final_result (state : ScanState) (final : InputProgress) (scanning : Scanning mode event own candidates state)
    (ends : state.continuation = .finalize final) :
    classifyUnsplit mode candidates ⟨.fromEvent event own, [], []⟩ = .ok ⟨final, state.actions, state.changes⟩ := by
  obtain ⟨pending, done, rest, unsplit, pair, tracks⟩ := scanning
  rcases tracks.continuation with scans | ⟨rfl, same⟩
  · exact absurd (scans.symm.trans ends) (scan_at_open pending _ _)
  · have quiet : pair = [] := by
      have halted := tracks.halted
      cases pending with
      | none => exact halted
      | some expected =>
          obtain ⟨_, _, _, _, _, wrong, _⟩ := halted
          cases wrong
    have progress : unsplit.progress = final := JoinContinuation.finalize.inj (same.symm.trans ends)
    rw [tracks.split, List.append_nil, tracks.classified, tracks.actions, tracks.changes, quiet, List.append_nil, ← progress]

theorem one_row_offered (state : ScanState) (budget : WorkBudget) (bounded : Bounded budget) :
    PageOffered candidates state ⟨budget, 1, decide ((afterCursor candidates state.continuation).length ≤ 1)⟩ := by
  have positive := budget.inputRowsPositive
  have few : ((afterCursor candidates state.continuation).take 1).length ≤ 1 := by
    rw [List.length_take]
    omega
  refine ⟨bounded.inputBytes, ⟨bounded.outputRows, bounded.outputBytes⟩, Nat.le_trans few positive, ?_, ?_, ?_⟩
  · change inputBytesOf ((afterCursor candidates state.continuation).take 1) ≤ _ ∨
      ((afterCursor candidates state.continuation).take 1).length = 1
    cases afterCursor candidates state.continuation with
    | nil => exact .inl (Nat.zero_le _)
    | cons candidate rest => exact .inr rfl
  · exact of_decide_eq_true
  · intro empty
    change (afterCursor candidates state.continuation).take 1 = [] at empty
    apply decide_eq_true
    rcases List.take_eq_nil_iff.mp empty with wrong | nothing
    · cases wrong
    · rw [nothing]
      exact Nat.zero_le _

end Whole

-- The candidates are a table's rows: valid, and in the order of their identifiers.
theorem paging_invisible (mode : JoinMode) (event : InputEventFacts) (own : OwnExpectation) (candidates : List CandidateProbe)
    (start : JoinContinuation) (started : JoinContinuation.startInput event own = .ok start)
    (rising : candidates.Pairwise fun first second => first.rowId < second.rowId)
    (valid : ∀ candidate ∈ candidates, candidate.validate = .ok ()) : PagingInvisible mode event own candidates := by
  have scanning : ∀ state, Path (pageStep mode event candidates) (PageOffered candidates) (startScan event own) state →
      Scanning mode event own candidates state := by
    intro state ran
    apply path_invariant (Scanning mode event own candidates) _ (startScan event own) state
      (start_scanning mode event own candidates) ran
    intro state choice after scans offered taken
    exact (scanning_step own rising valid scans offered taken).1
  constructor
  · intro state final ran ends
    have whole := final_result mode event own candidates state final (scanning state ran) ends
    obtain ⟨matched, unknown⟩ := unsplit_counts mode candidates _ _ whole
    refine ⟨whole, ?_⟩
    rw [show final.oppositeCounts = ⟨final.oppositeCounts.matched, final.oppositeCounts.unknown⟩ from rfl, matched, unknown]
    simp only [InputProgress.fromEvent, Nat.zero_add]
  · intro state choice after ran offered taken
    exact (scanning_step own rising valid (scanning state ran) offered taken).2
  · intro whole classified measured
    apply ends_of_measure (fun state => pagesLeft candidates state.continuation) _
      (startScan event own) (start_scanning mode event own candidates)
    intro state choice scans unfinished offered
    obtain ⟨pending, done, rest, unsplit, pair, tracks⟩ := scans
    rcases tracks.continuation with open_ | ⟨_, final⟩
    · obtain ⟨after, taken⟩ := scanning_total own rising valid started measured classified tracks open_ offered
      exact ⟨after, taken, scanning_step own rising valid ⟨pending, done, rest, unsplit, pair, tracks⟩ offered taken⟩
    · apply absurd _ unfinished
      have same := final_result mode event own candidates state _ ⟨pending, done, rest, unsplit, pair, tracks⟩ final
      rw [classified] at same
      obtain rfl := Except.ok.inj same
      rw [← final]
  · intro state budget bounded
    exact ⟨_, rfl, one_row_offered candidates state budget bounded⟩

def soleEvent : InputEventFacts := ⟨.right, ⟨⟨2, 1, 0⟩, ⟨3, 1, 0⟩⟩, 1, 8⟩

-- Two rows of the outer side that both lose their NULL-extended row.
def outerRows : List CandidateProbe :=
  [⟨1, 2, .true, {}, 8, ⟨some 16, some 8⟩⟩, ⟨4, 1, .true, {}, 8, ⟨some 16, some 8⟩⟩]

theorem paging_invisible_outer : PagingInvisible .left soleEvent {} outerRows :=
  paging_invisible .left soleEvent {} outerRows (.probe (.fromEvent soleEvent {})) (by decide) (by decide) (by decide)

-- Rows whose multiplicities do not add up to a bigint.
def heavyRows : List CandidateProbe :=
  [⟨1, bigintMax, .true, {}, 8, ⟨none, none⟩⟩, ⟨4, bigintMax, .true, {}, 8, ⟨none, none⟩⟩]

def wholePage : PageChoice := ⟨⟨2, 100, 2, 100, by decide, by decide, by decide, by decide⟩, 2, true⟩

theorem heavy_rows_refused :
    heavyRows.Pairwise (fun first second => first.rowId < second.rowId) ∧
      (∀ candidate ∈ heavyRows, candidate.validate = .ok ()) ∧
      JoinContinuation.startInput { soleEvent with side := .left } {} =
        .ok (.probe (.fromEvent { soleEvent with side := .left } {})) ∧
      ¬ Ends (pageStep .semi { soleEvent with side := .left } heavyRows) (PageOffered heavyRows)
        (fun state => ∃ final, state.continuation = .finalize final) (startScan { soleEvent with side := .left } {}) := by
  refine ⟨by decide, by decide +kernel, by decide, ?_⟩
  intro ends
  have refused : (pageStep .semi { soleEvent with side := .left } heavyRows
      (startScan { soleEvent with side := .left } {}) wholePage).toOption = none := by decide +kernel
  cases ends with
  | here _ reached =>
      obtain ⟨_, wrong⟩ := reached
      cases wrong
  | next _ accepts _ =>
      have offered : PageOffered heavyRows (startScan { soleEvent with side := .left } {}) wholePage :=
        ⟨by decide, by decide, by decide, by decide, by decide, by decide⟩
      obtain ⟨after, taken⟩ := accepts wholePage offered
      rw [taken] at refused
      cases refused

end Shiba.Join
