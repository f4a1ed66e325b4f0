import Shiba.Join.Page

set_option autoImplicit false

namespace Shiba.Join

open Shiba.Execution

-- A scan that belongs to the event it was started for.
structure Underway (event : InputEventFacts) (progress : InputProgress) : Prop where
  valid : event.validate = .ok ()
  placed : progress.positions = event.positions
  sided : progress.side = event.side
  weighed : progress.eventWeight = event.weight
  sized : progress.eventBytes = event.rowBytes
  owned : progress.expectedOwn.validateEvent event.weight = .ok ()
  identified : ∀ rowId, progress.candidateAfter = some rowId → 0 < rowId
  counted : progress.oppositeCounts.Fit

theorem event_parts {event : InputEventFacts} (valid : event.validate = .ok ()) :
    event.positions.validate = .ok () ∧ event.weight ≠ 0 ∧ event.rowBytes ≠ 0 := by
  unfold InputEventFacts.validate at valid
  obtain ⟨_, placed, later⟩ := bind_ok_iff.mp valid
  obtain ⟨_, weighed, sized⟩ := bind_ok_iff.mp later
  exact ⟨placed, of_decide_eq_false (refuse_ok.mp weighed), of_decide_eq_false (refuse_ok.mp sized)⟩

theorem underway_valid (event : InputEventFacts) (progress : InputProgress) (underway : Underway event progress) :
    progress.validate = .ok () := by
  obtain ⟨placed, weighed, sized⟩ := event_parts underway.valid
  have counted := counts_ok _ underway.counted
  rw [InputProgress.validate, underway.placed, placed, ok_bind, underway.weighed, refuse_false (decide_eq_false weighed),
    ok_bind, underway.sized, refuse_false (decide_eq_false sized), ok_bind, underway.owned, ok_bind, counted]
  cases after : progress.candidateAfter with
  | none => rfl
  | some rowId =>
      simp only [stable_id_ok _ (underway.identified rowId after), ok_bind]

theorem underway_resume {event : InputEventFacts} {progress : InputProgress} (underway : Underway event progress) :
    progress.validateResume event = .ok () := by
  rw [InputProgress.validateResume, underway.valid, ok_bind, refuse_false (decide_eq_false (not_not.mpr underway.sided)),
    ok_bind, refuse_false (decide_eq_false (not_not.mpr underway.placed)), ok_bind,
    refuse_false (decide_eq_false (not_not.mpr underway.weighed)), ok_bind,
    refuse_false (decide_eq_false (not_not.mpr underway.sized))]

theorem follows_ok (after : Option Int) (rowId : Int) (behind : ∀ other, after = some other → other < rowId) :
    (after.any fun other => decide (rowId ≤ other)) = false := by
  cases after with
  | none => rfl
  | some other =>
      have order := behind other rfl
      exact decide_eq_false (by omega)

section

variable {Row : Type} (spec : JoinSpec Row) (side : InputSide) (row : Row) (weight : Int)

-- The rows come after the cursor, in the strict order of their identifiers.
def Behind (after : Option Int) : List (Entry Row) → Prop
  | [] => True
  | entry :: rest => (∀ rowId, after = some rowId → rowId < entry.rowId) ∧ Behind (some entry.rowId) rest

theorem behind_take (count : Nat) (after : Option Int) (entries : List (Entry Row)) (behind : Behind after entries) :
    Behind after (entries.take count) := by
  induction entries generalizing after count with
  | nil =>
      rw [List.take_nil]
      trivial
  | cons entry rest ih =>
      cases count with
      | zero => trivial
      | succ count => exact ⟨behind.1, ih count (some entry.rowId) behind.2⟩

theorem past_all_behind (done rest : List (Entry Row)) (progress : InputProgress)
    (behind : Behind progress.candidateAfter (done ++ rest)) :
    Behind (progress.pastAll spec side row done).candidateAfter rest := by
  induction done generalizing progress with
  | nil => exact behind
  | cons entry done ih => exact ih (progress.past spec side row entry) behind.2

variable {complete : Bool} {budget : WorkBudget} {page : List (Entry Row)} (after : Option Int)
  {event : InputEventFacts} (pending : Option CandidateExpectation) (entries : List (Entry Row))
  {progress : InputProgress}

theorem past_all_identified (progress : InputProgress)
    (identified : ∀ rowId, progress.candidateAfter = some rowId → 0 < rowId) (positive : ∀ entry ∈ entries, 0 < entry.rowId) :
    ∀ rowId, (progress.pastAll spec side row entries).candidateAfter = some rowId → 0 < rowId := by
  induction entries generalizing progress with
  | nil => exact identified
  | cons entry entries ih =>
      apply ih (progress.past spec side row entry)
      · intro rowId same
        have here := positive entry List.mem_cons_self
        have known : entry.rowId = rowId := Option.some.inj same
        omega
      · exact fun other member => positive other (List.mem_cons_of_mem _ member)

theorem past_all_underway {entries : List (Entry Row)} (underway : Underway event progress)
    (positive : ∀ entry ∈ entries, 0 < entry.rowId) (room : progress.Room spec side row entries) :
    Underway event (progress.pastAll spec side row entries) := by
  obtain ⟨placed, sided, weighed, sized, owned⟩ := past_all_frame spec side row entries progress
  obtain ⟨matched, unknown⟩ := past_all_counts spec side row entries progress
  refine ⟨underway.valid, placed.trans underway.placed, sided.trans underway.sided, weighed.trans underway.weighed,
    sized.trans underway.sized, ?_, ?_, ?_⟩
  · rw [owned]
    exact underway.owned
  · exact past_all_identified spec side row entries progress underway.identified positive
  · unfold MatchCounts.Fit
    rw [matched, unknown]
    exact room

theorem gathered_append (truth : MatchTruth) (first second : List (Entry Row)) :
    gathered spec side row truth (first ++ second) =
      gathered spec side row truth first + gathered spec side row truth second := by
  simp [gathered]

theorem room_of_part {done rest : List (Entry Row)} (room : progress.Room spec side row (done ++ rest)) :
    progress.Room spec side row done := by
  unfold InputProgress.Room at room ⊢
  rw [gathered_append, gathered_append] at room
  omega

theorem keyset_ok (behind : Behind after entries) (meetable : ∀ entry ∈ entries, Meetable spec side row weight entry) :
    validateKeysetOrder after (entries.map (candidateProbe spec side row weight)) = .ok () := by
  induction entries generalizing after with
  | nil => rfl
  | cons entry rest ih =>
      have valid := probe_valid spec side row entry (meetable entry List.mem_cons_self)
      have later := ih (some entry.rowId) behind.2 fun other member => meetable other (List.mem_cons_of_mem _ member)
      have follows := follows_ok after (candidateProbe spec side row weight entry).rowId behind.1
      rw [List.map_cons, validateKeysetOrder, valid, ok_bind, refuse_false follows, ok_bind]
      exact later

theorem page_order_ok {pending : Option CandidateExpectation} (behind : Behind progress.candidateAfter page)
    (meetable : ∀ entry ∈ page, Meetable spec side row weight entry) (resumes : Resumes spec side row weight pending page)
    (filled : page = [] → complete = true) :
    validateProbePageOrder progress pending
      { candidates := page.map (candidateProbe spec side row weight), complete := complete } = .ok () := by
  cases pending with
  | none =>
      cases page with
      | nil => exact refuse_false (by rw [filled rfl]; rfl) _
      | cons entry rest => exact keyset_ok spec side row weight progress.candidateAfter (entry :: rest) behind meetable
  | some expected =>
      obtain ⟨entry, rest, rfl, rfl, _⟩ := resumes expected rfl
      have valid := probe_valid spec side row entry (meetable entry List.mem_cons_self)
      have later := keyset_ok spec side row weight (some entry.rowId) rest behind.2
        fun other member => meetable other (List.mem_cons_of_mem _ member)
      have first : refuse (decide ((candidateProbe spec side row weight entry).rowId ≠
          (expectationOf spec side row weight entry).rowId)) "pending Join candidate was not the first probe row" = .ok () :=
        refuse_false (decide_eq_false (not_not.mpr rfl)) _
      have follows := follows_ok progress.candidateAfter (candidateProbe spec side row weight entry).rowId behind.1
      simp only [validateProbePageOrder, List.map_cons]
      rw [valid, ok_bind, first, ok_bind, refuse_false follows, ok_bind]
      exact later

def pageBytes (entries : List (Entry Row)) : Nat := (entries.map fun entry => spec.rowBytes side.opposite entry.row).sum

theorem sum_bytes_ok (total : Nat) (fits : total + pageBytes spec side entries ≤ u64Max) :
    sumRowBytes (entries.map (candidateProbe spec side row weight)) total = .ok (total + pageBytes spec side entries) := by
  induction entries generalizing total with
  | nil => rfl
  | cons entry rest ih =>
      have cut : pageBytes spec side (entry :: rest) = spec.rowBytes side.opposite entry.row + pageBytes spec side rest := rfl
      rw [cut, ← Nat.add_assoc] at fits ⊢
      have here : checkedU64 total (candidateProbe spec side row weight entry).rowBytes
          "Join probe input byte count overflow" = .ok (total + spec.rowBytes side.opposite entry.row) :=
        checked_u64_ok _ _ _ (by simp only [candidateProbe]; omega)
      rw [List.map_cons, sumRowBytes, here, ok_bind, ih _ fits]

-- A page as its loader selects it: only a single row may exceed the byte budget.
structure Fitting (budget : WorkBudget) (entries : List (Entry Row)) : Prop where
  rows : entries.length ≤ budget.maxInputRows
  bytes : pageBytes spec side entries ≤ budget.maxInputBytes ∨ entries.length = 1

theorem page_bytes_fit (budget : WorkBudget) (bounded : Bounded budget) (entries : List (Entry Row))
    (fitting : Fitting spec side budget entries) : pageBytes spec side entries ≤ bigintMax := by
  rcases fitting.bytes with small | single
  · have limit := bounded.inputBytes
    omega
  · obtain ⟨entry, rfl⟩ := List.length_eq_one_iff.mp single
    have measured := (spec.rowMeasured side.opposite entry.row).2
    simp only [pageBytes, List.map_cons, List.map_nil, List.sum_cons, List.sum_nil]
    omega

theorem dimension_ok (rows bytes maxRows maxBytes : Nat) (name : String) (few : rows ≤ maxRows)
    (small : bytes ≤ maxBytes ∨ rows = 1) : validateDimension rows bytes maxRows maxBytes name = .ok () := by
  have inside : (decide (maxBytes < bytes) && decide (rows ≠ 1)) = false := by
    rw [Bool.and_eq_false_iff]
    rcases small with small | single
    · exact Or.inl (decide_eq_false (by omega))
    · exact Or.inr (decide_eq_false (not_not.mpr single))
  rw [validateDimension, refuse_false (decide_eq_false (by omega)), ok_bind, refuse_false inside]

theorem usage_ok {usage : WorkUsage} (inputRows : usage.inputRows ≤ budget.maxInputRows)
    (inputBytes : usage.inputBytes ≤ budget.maxInputBytes ∨ usage.inputRows = 1)
    (outputRows : usage.outputRows ≤ budget.maxOutputRows)
    (outputBytes : usage.outputBytes ≤ budget.maxOutputBytes ∨ usage.outputRows = 1) :
    usage.validate budget = .ok () := by
  rw [WorkUsage.validate, dimension_ok _ _ _ _ _ inputRows inputBytes, ok_bind, dimension_ok _ _ _ _ _ outputRows outputBytes]

theorem validate_all_ok {α : Type} (validate : α → Except Fault Unit) (items : List α)
    (valid : ∀ item ∈ items, validate item = .ok ()) : validateAll validate items = .ok () := by
  induction items with
  | nil => rfl
  | cons item rest ih =>
      rw [validateAll, valid item List.mem_cons_self, ok_bind]
      exact ih fun other member => valid other (List.mem_cons_of_mem _ member)

theorem change_valid (meetable : ∀ entry ∈ entries, Meetable spec side row weight entry) (change : CandidateStateChange)
    (member : change ∈ changesOf spec side row weight entries) : change.validate = .ok () := by
  obtain ⟨expected, listed, kept⟩ := List.mem_filterMap.mp member
  obtain ⟨entry, inside, rfl⟩ := List.mem_map.mp listed
  by_cases moved : (expectationOf spec side row weight entry).oldCounts ≠ (expectationOf spec side row weight entry).newCounts
  · rw [if_pos moved] at kept
    obtain rfl := Option.some.inj kept
    rw [CandidateStateChange.validate, expectation_valid spec side row entry (meetable entry inside), ok_bind]
    exact refuse_false (decide_eq_false moved) _
  · rw [if_neg moved] at kept
    cases kept

theorem begun_sound (present : weight ≠ 0) (meetable : ∀ entry ∈ entries, Meetable spec side row weight entry)
    (action : OutputAction) (member : action ∈ begun spec side row weight pending entries) : action.Sound := by
  unfold begun at member
  split at member
  · rw [List.mem_singleton.mp member]
    exact pair_sound spec side row weight _ present (meetable _ List.mem_cons_self)
  · cases member

theorem pending_ok {entry : Entry Row} {rest : List (Entry Row)} (underway : Underway event progress)
    (weighed : event.weight = weight) (hit : Matches spec side row entry)
    (behind : Behind progress.candidateAfter (entry :: rest)) (meetable : Meetable spec side row weight entry) :
    validatePendingCandidate progress (expectationOf spec side row weight entry) = .ok () := by
  have counts : checkedSignedCount entry.counts.matched weight "pending Join candidate matched count" =
      .ok (entry.counts.matched + weight).toNat :=
    signed_count_ok _ meetable.counted.1 (meetable.matchedNatural hit.1) (meetable.matchedFits hit.1)
  have known : (expectationOf spec side row weight entry).truth = .true := hit.1
  have shifted : (expectationOf spec side row weight entry).newCounts =
      { entry.counts with matched := (entry.counts.matched + weight).toNat } := by
    unfold expectationOf Entry.shifted countsAfter
    simp only [hit.1]
  have same : (decide ((expectationOf spec side row weight entry).newCounts.matched ≠ (entry.counts.matched + weight).toNat) ||
      decide ((expectationOf spec side row weight entry).newCounts.unknown ≠
        (expectationOf spec side row weight entry).oldCounts.unknown)) = false := by
    rw [shifted]
    simp [expectationOf]
  have follows := follows_ok progress.candidateAfter (expectationOf spec side row weight entry).rowId behind.1
  rw [validatePendingCandidate, underway_valid event progress underway, ok_bind,
    expectation_valid spec side row entry meetable, ok_bind, refuse_false (decide_eq_false (not_not.mpr known)), ok_bind,
    underway.weighed, weighed]
  change (checkedSignedCount entry.counts.matched weight _ >>= _) = _
  rw [counts, ok_bind, refuse_false same, ok_bind, refuse_false follows]

def scanAt (pending : Option CandidateExpectation) (progress : InputProgress) : JoinContinuation :=
  match pending with
  | none => .probe progress
  | some expected => .pendingTransition progress expected

theorem scan_at_inj (first second : Option CandidateExpectation) (one other : InputProgress)
    (same : scanAt first one = scanAt second other) : first = second ∧ one = other := by
  cases first <;> cases second <;> simp_all [scanAt]

theorem scan_at_open (one other : InputProgress) : scanAt pending one ≠ .finalize other := by
  cases pending <;> simp [scanAt]

def scanNext (pending : Option CandidateExpectation) (progress : InputProgress) (finished : Bool) : JoinContinuation :=
  if finished then .finalize progress else scanAt pending progress

-- A planned page: done up to `rest`, with the actions and the changes of what is done.
structure Planned (progress : InputProgress) (pending : Option CandidateExpectation) (page : List (Entry Row))
    (complete : Bool) (plan : ActionPlan) (later : Option CandidateExpectation) (done rest : List (Entry Row)) : Prop where
  split : page = done ++ rest
  emitted : begun spec side row weight pending page ++ plan.actions =
    done.flatMap (candidateActions spec side row weight) ++ begun spec side row weight later rest
  changed : plan.candidateChanges = changesOf spec side row weight done
  next : plan.next = scanNext later (progress.pastAll spec side row done) (rest.isEmpty && complete)
  resumes : Resumes spec side row weight later rest

theorem plan_ok {pending : Option CandidateExpectation} (bounded : Bounded budget) (sided : event.side = side)
    (weighed : event.weight = weight) (underway : Underway event progress) (behind : Behind progress.candidateAfter page)
    (meetable : ∀ entry ∈ page, Meetable spec side row weight entry) (resumes : Resumes spec side row weight pending page)
    (room : progress.Room spec side row page) (filled : page = [] → complete = true)
    (fitting : Fitting spec side budget page) :
    ∃ plan later done rest, planActions spec.mode (scanAt pending progress) event
        { candidates := page.map (candidateProbe spec side row weight), complete := complete } budget = .ok plan ∧
      Planned spec side row weight progress pending page complete plan later done rest := by
  have present : weight ≠ 0 := by
    rw [← weighed]
    exact (event_parts underway.valid).2.1
  have resumed : (scanAt pending progress).validateInputResume event = .ok () := by
    cases pending <;> exact underway_resume underway
  have ordered := page_order_ok spec side row weight behind meetable resumes filled
  have measured := page_bytes_fit spec side budget bounded page fitting
  have small : bigintMax ≤ u64Max := by decide
  have summed := sum_bytes_ok spec side row weight page 0 (by omega)
  rw [Nat.zero_add] at summed
  have length : (page.map (candidateProbe spec side row weight)).length = page.length := List.length_map _
  have started : Running spec side row weight budget page { progress := progress } :=
    ⟨underway.sided.trans sided, underway.weighed.trans weighed, room,
      ⟨Nat.zero_le _, Or.inl (Nat.zero_le _), Nat.zero_le _, fun _ => rfl⟩, rfl, rfl⟩
  obtain ⟨state, done, rest, processed, ⟨split, ⟨selected, actions, emitted⟩, changed, advanced, within, finished, later⟩⟩ :=
    process_ok spec side row weight budget bounded present page pending { progress := progress } meetable resumes started
  have meetDone : ∀ entry ∈ done, Meetable spec side row weight entry :=
    fun entry member => meetable entry (by rw [split]; exact List.mem_append_left _ member)
  have meetRest : ∀ entry ∈ rest, Meetable spec side row weight entry :=
    fun entry member => meetable entry (by rw [split]; exact List.mem_append_right _ member)
  have actionsValid : validateAll OutputAction.validate state.actions = .ok () := by
    apply validate_all_ok
    intro action member
    rw [actions] at member
    have listed : action ∈ done.flatMap (candidateActions spec side row weight) ++
        begun spec side row weight state.nextPending rest := by
      rw [← emitted]
      exact List.mem_append_right _ member
    rcases List.mem_append.mp listed with whole | part
    · obtain ⟨entry, inside, source⟩ := List.mem_flatMap.mp whole
      exact (candidate_sound spec side row weight entry present (meetDone entry inside) action source).1
    · exact (begun_sound spec side row weight _ rest present meetRest action part).1
  have changesValid : validateAll CandidateStateChange.validate state.changes = .ok () := by
    apply validate_all_ok
    intro change member
    rw [changed] at member
    exact change_valid spec side row weight done meetDone change member
  have nextValid : state.nextContinuation complete =
      .ok (scanNext state.nextPending state.progress (rest.isEmpty && complete)) := by
    unfold PageProgress.nextContinuation
    cases halted : state.nextPending with
    | none =>
        simp only [finished, scanNext, scanAt]
        split <;> rfl
    | some expected =>
        rw [halted] at later
        obtain ⟨entry, tail, rfl, rfl, hit, _⟩ := later expected rfl
        have ahead : Behind state.progress.candidateAfter (entry :: tail) := by
          rw [advanced]
          exact past_all_behind spec side row done (entry :: tail) progress (by rw [← split]; exact behind)
        have still : Underway event state.progress := by
          rw [advanced]
          exact past_all_underway spec side row underway (fun entry inside => (meetDone entry inside).identified)
            (room_of_part spec side row (by rw [← split]; exact room))
        have valid := pending_ok spec side row weight still weighed hit ahead (meetRest entry List.mem_cons_self)
        simp only [valid, ok_bind]
        rfl
  have rows := within.rowLimit
  have probed : WorkUsage.validate { inputRows := (page.map (candidateProbe spec side row weight)).length
                                     inputBytes := pageBytes spec side page } budget = .ok () :=
    usage_ok (by simp only [length]; exact fitting.rows) (by simp only [length]; exact fitting.bytes)
      (Nat.zero_le _) (Or.inl (Nat.zero_le _))
  have used : WorkUsage.validate { inputRows := (page.map (candidateProbe spec side row weight)).length
                                   inputBytes := pageBytes spec side page, outputRows := state.outputRows
                                   outputBytes := state.outputBytes } budget = .ok () :=
    usage_ok (by simp only [length]; exact fitting.rows) (by simp only [length]; exact fitting.bytes)
      within.rowLimit within.byteLimit
  have planned : planActions spec.mode (scanAt pending progress) event
      { candidates := page.map (candidateProbe spec side row weight), complete := complete } budget = .ok
        { budget := budget
          usage := { inputRows := (page.map (candidateProbe spec side row weight)).length
                     inputBytes := pageBytes spec side page, outputRows := state.outputRows, outputBytes := state.outputBytes }
          actions := state.actions, candidateChanges := state.changes
          next := scanNext state.nextPending state.progress (rest.isEmpty && complete) } := by
    unfold planActions
    rw [resumed, ok_bind]
    cases pending <;>
    · simp only [scanAt]
      change (progress.validate >>= _) = _
      rw [underway_valid event progress underway, ok_bind, ordered, ok_bind, summed, ok_bind, probed, ok_bind, processed,
        ok_bind, actionsValid, ok_bind, changesValid, ok_bind, nextValid, ok_bind, used, ok_bind]
      rfl
  refine ⟨_, state.nextPending, done, rest, planned, ⟨split, ?_, ?_, ?_, later⟩⟩
  · rw [← emitted, actions]
    rfl
  · rw [changed]
    rfl
  · rw [← advanced]

end

end Shiba.Join
