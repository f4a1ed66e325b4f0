import Shiba.Linear.FrontierSteps

set_option autoImplicit false

namespace Shiba.Linear

open Budget Shiba.Stream Shiba.Execution Shiba.Execution.StepContext

variable {Row Out : Type}

section Spool

variable {spool : Bootstrap Out} (next : Nat) (numbered : spool.map Prod.fst = List.range' next spool.length)

include numbered

-- The spool holds nothing before the cursor.
theorem spool_from (atOrAfter : Nat) (low : atOrAfter ≤ next) :
    (spool.filter fun row => decide (atOrAfter ≤ row.1)) = spool := by
  rw [List.filter_eq_self]
  intro row member
  have inRange : row.1 ∈ List.range' next spool.length := numbered ▸ List.mem_map_of_mem member
  exact decide_eq_true (Nat.le_trans low (List.mem_range'_1.mp inRange).1)

theorem taken_numbers (count : Nat) :
    (spool.take count).map Prod.fst = List.range' next (min count spool.length) := by
  rw [List.map_take, numbered]
  rcases Nat.le_total count spool.length with short | long
  · rw [List.take_range'_of_length_ge short, Nat.min_eq_left short]
  · rw [List.take_range'_of_length_le long, Nat.min_eq_right long]

theorem rest_numbers (count : Nat) :
    (spool.drop count).map Prod.fst = List.range' (next + count) (spool.drop count).length := by
  rw [List.map_drop, numbered, List.drop_range', List.length_drop, Nat.mul_one]

-- What a page leaves in the spool.
theorem spool_remaining (count : Nat) :
    (spool.filter fun row => decide (row.1 ∉ (spool.take count).map Prod.fst)) = spool.drop count := by
  have distinct : (spool.map Prod.fst).Nodup := by
    rw [numbered]
    exact List.nodup_range'
  exact filter_not_taken distinct count

end Spool

theorem source_bytes_positive (spec : ScanSpec Row Out) (rows : List (EffectRow Row)) (present : rows ≠ []) :
    0 < spec.sourceBytes rows := by
  cases rows with
  | nil => exact absurd rfl present
  | cons row rest =>
      simp only [ScanSpec.sourceBytes, List.map_cons, List.sum_cons]
      omega

theorem output_bytes_positive (spec : ScanSpec Row Out) (rows : List (EffectRow Out)) (present : rows ≠ []) :
    0 < spec.outputBytes rows := by
  cases rows with
  | nil => exact absurd rfl present
  | cons row rest =>
      simp only [ScanSpec.outputBytes, List.map_cons, List.sum_cons]
      omega

theorem page_resources (limits : StreamLimits) (rows bytes : Nat) (someRows : 0 < rows) (someBytes : 0 < bytes)
    (counted : rows ≤ limits.targetChunkRows) (sized : bytes ≤ limits.targetChunkBytes ∨ rows = 1) :
    resourcesFit limits .data rows bytes = true := by
  simp only [resourcesFit, Bool.and_eq_true, Bool.or_eq_true, decide_eq_true_eq]
  exact ⟨⟨⟨someRows, someBytes⟩, counted⟩, sized⟩

-- A stepped context that published no frontier commits its receipt.
theorem process_commits {Cont State : Type} (context : StepContext Row Out Cont State) (phase : KernelPhase)
    (facts : PrimitiveFacts) (hasContinuation : Bool) (bound : context.continuationPresence = some hasContinuation)
    (valid : facts.usage.validate context.budget = .ok ())
    (progress : hasContinuation = true → context.continuationChanged = true) (same : context.outputFacts = facts.output)
    (agrees : OutputAgrees phase facts.usage facts.output) (data : facts.output.isFrontier = false)
    (numbered : ∀ sequence, facts.output = .data sequence → sequence ≠ 0) (fits : PendingFits context)
    (expected : context.tables.revision = context.expectedRevision) :
    context.transitionFacts phase facts = .ok (context.withStateRows facts.stateRows,
        (context.withStateRows facts.stateRows).stepReceipt phase facts.usage hasContinuation) ∧
      (context.withStateRows facts.stateRows).Committable phase facts.usage hasContinuation := by
  refine ⟨transition_facts_ok context bound valid progress same agrees data numbered,
    ⟨bound, valid, progress, ?_, fits, expected⟩⟩
  rw [← same] at agrees
  exact agrees

section Bootstrap

variable (spec : ScanSpec Row Out) (key : ConsumerKey) (tables : ScanTables Row Out) (budget : WorkBudget)
  (row : StreamConsumer)

-- The context once a page left the spool.
def spoolRead (tables : ScanTables Row Out) (key : ConsumerKey) (budget : WorkBudget) (row : StreamConsumer)
    (count : Nat) : ScanContext Row Out :=
  { boundContext tables key budget row with tables := { tables with state := tables.state.drop count } }

def snapshotContinuation (streamId : Nat) (activationLsn : Lsn) : ScanContinuation where
  phase := .snapshotFrontier
  inputStreamId := streamId
  pendingFrontierLsn := some activationLsn

def bootstrapContinuation (streamId next : Nat) : ScanContinuation where
  phase := .bootstrap
  inputStreamId := streamId
  nextBootstrapSeq := some next

-- The cursor after a page: inside the spool, or past it.
def afterPage (tables : ScanTables Row Out) (row : StreamConsumer) (next count : Nat) : ScanContinuation :=
  if tables.state.drop count = [] then snapshotContinuation tables.input.stream.streamId row.activationLsn
  else bootstrapContinuation tables.input.stream.streamId (next + count)

variable (next count : Nat) (numbered : tables.state.map Prod.fst = List.range' next tables.state.length)

include numbered

theorem first_remaining : firstBootstrapSequence (tables.state.drop count) (next + count) =
    if tables.state.drop count = [] then none else some (next + count) := by
  have rest := rest_numbers next numbered count
  unfold firstBootstrapSequence
  rw [spool_from _ rest _ (Nat.le_refl _), rest]
  by_cases empty : tables.state.drop count = []
  · rw [empty]
    rfl
  · rw [range_min _ _ (List.length_pos_iff.mpr empty), if_neg empty]

theorem page_of_spool (target : 0 < tables.output.stream.targetChunkRows) : ∃ count ≤ tables.state.length,
    bootstrapPage spec budget (outputState tables.output.stream) tables.state next = tables.state.take count ∧
      (tables.state ≠ [] → 0 < count ∧
        PageFits count (spec.outputBytes (bootstrapRows (tables.state.take count)))
          (min (min budget.maxInputRows budget.maxOutputRows) tables.output.stream.targetChunkRows)
          (min (min budget.maxInputBytes budget.maxOutputBytes) tables.output.stream.targetChunkBytes)) := by
  obtain ⟨count, page, some⟩ := bootstrap_page_taken spec budget (outputState tables.output.stream) target tables.state next
  rw [spool_from _ numbered _ (Nat.le_refl _)] at page some
  have cut : tables.state.take count = tables.state.take (min count tables.state.length) := List.take_eq_take_min
  rw [cut] at page
  refine ⟨min count tables.state.length, Nat.min_le_right _ _, page, fun present => ?_⟩
  obtain ⟨positive, fits⟩ := some present
  have length := List.length_pos_iff.mpr present
  rw [page, List.length_take, Nat.min_assoc, Nat.min_self] at fits
  exact ⟨Nat.lt_min.mpr ⟨positive, length⟩, fits⟩

-- A page of the spool in its output.
def pageRecorded (spec : ScanSpec Row Out) (tables : ScanTables Row Out) (key : ConsumerKey) (budget : WorkBudget)
    (row : StreamConsumer) (count : Nat) : ScanContext Row Out :=
  (spoolRead tables key budget row count).dataRecorded count
    (spec.outputBytes (bootstrapRows (tables.state.take count))) row.activationLsn
    (bootstrapRows (tables.state.take count))

def pageUsage (spec : ScanSpec Row Out) (tables : ScanTables Row Out) (count : Nat) : WorkUsage :=
  ⟨count, spec.outputBytes (bootstrapRows (tables.state.take count)), count,
    spec.outputBytes (bootstrapRows (tables.state.take count))⟩

omit numbered in
theorem page_usage_valid (fits : PageFits count (spec.outputBytes (bootstrapRows (tables.state.take count)))
    (min (min budget.maxInputRows budget.maxOutputRows) tables.output.stream.targetChunkRows)
    (min (min budget.maxInputBytes budget.maxOutputBytes) tables.output.stream.targetChunkBytes)) :
    (pageUsage spec tables count).validate budget = .ok () := by
  have counted := fits.counted
  simp only [Nat.le_min] at counted
  refine usage_valid (pageUsage spec tables count) budget ⟨counted.1.1, ?_⟩ ⟨counted.1.2, ?_⟩
  · refine fits.sized.imp (fun small => ?_) id
    simp only [Nat.le_min] at small
    exact small.1.1
  · refine fits.sized.imp (fun small => ?_) id
    simp only [Nat.le_min] at small
    exact small.1.2

variable (positive : 0 < count) (within : count ≤ tables.state.length)
  (page : bootstrapPage spec budget (outputState tables.output.stream) tables.state next = tables.state.take count)
  (valid : (pageUsage spec tables count).validate budget = .ok ())
  (data : DataFits tables.output.stream row.activationLsn)

include positive within page valid data

theorem run_bootstrap_ok : runBootstrapPrimitive spec (boundContext tables key budget row) next row.activationLsn =
    .ok (pageRecorded spec tables key budget row count,
      ⟨pageUsage spec tables count, some next, some (next + count - 1),
        .data tables.output.stream.nextChunkSeq⟩) := by
  have length : (tables.state.take count).length = count := by
    rw [List.length_take]
    omega
  have numbers := taken_numbers next numbered count
  rw [Nat.min_eq_left within] at numbers
  have someRows : bootstrapRows (tables.state.take count) ≠ [] := by
    intro empty
    have none := congrArg List.length empty
    rw [bootstrapRows, List.length_map, length] at none
    exact absurd none (Nat.ne_of_gt positive)
  have recorded := record_data_ok (spoolRead tables key budget row count) ⟨rfl, rfl⟩ count
    (spec.outputBytes (bootstrapRows (tables.state.take count))) row.activationLsn
    (bootstrapRows (tables.state.take count)) data positive (output_bytes_positive spec _ someRows)
  have remaining : (tables.state.filter fun row => decide (row.1 ∉ List.range' next count)) = tables.state.drop count := by
    rw [← numbers]
    exact spool_remaining next numbered count
  have sameState : (boundContext tables key budget row).tables.state = tables.state := rfl
  have sameOutput : (boundContext tables key budget row).output = outputState tables.output.stream := rfl
  have sameBudget : (boundContext tables key budget row).budget = budget := rfl
  have notEmpty : ¬ count = 0 := Nat.ne_of_gt positive
  unfold pageUsage at valid
  unfold runBootstrapPrimitive
  simp only [sameState, sameOutput, sameBudget, page, length, notEmpty, if_false, valid, ok_bind, numbers, remaining,
    range_min _ _ positive, range_max _ _ positive]
  exact bind_ok_iff.mpr ⟨_, recorded, rfl⟩

omit numbered positive within page valid data in
theorem page_continuation_valid (streamId : 0 < tables.input.stream.streamId) (onward : 0 < next + count) :
    validateScanContinuation (afterPage tables row next count) = .ok () := by
  unfold afterPage
  split
  · simp [validateScanContinuation, snapshotContinuation, Nat.ne_of_gt streamId, refuse, bind, Except.bind]
  · simp only [validateScanContinuation, bootstrapContinuation, Nat.ne_of_gt streamId, Option.any_some,
      decide_eq_true onward, decide_false, refuse]
    rfl

-- The page moves the cursor, or turns to the snapshot frontier.
theorem step_bootstrap_ok (streamId : 0 < tables.input.stream.streamId)
    (saved : tables.continuation = some (bootstrapContinuation tables.input.stream.streamId next)) :
    stepBootstrap spec (boundContext tables key budget row) (bootstrapContinuation tables.input.stream.streamId next) =
      ((pageRecorded spec tables key budget row count).withContinuation
        (some (afterPage tables row next count))).transitionFacts .admitted
          ⟨pageUsage spec tables count, count, .data tables.output.stream.nextChunkSeq⟩ := by
  have activation : (boundContext tables key budget row).input.activationLsn = row.activationLsn := rfl
  have run := run_bootstrap_ok spec key tables budget row next count numbered positive within page valid data
  have replaced := replace_continuation_ok (pageRecorded spec tables key budget row count)
    (some (afterPage tables row next count)) "Scan" rfl
  have sameSaved : (pageRecorded spec tables key budget row count).tables.continuation =
    some (bootstrapContinuation tables.input.stream.streamId next) := saved
  have sameState : (pageRecorded spec tables key budget row count).tables.state = tables.state.drop count := rfl
  have accepted := page_continuation_valid tables row next count streamId (by omega)
  have cursor : next + count - 1 + 1 = next + count := by omega
  have inputRows : (pageUsage spec tables count).inputRows = count := rfl
  have nextSeq : (bootstrapContinuation tables.input.stream.streamId next).nextBootstrapSeq = some next := rfl
  have moved : replaceScanContinuation (pageRecorded spec tables key budget row count)
      (some (bootstrapContinuation tables.input.stream.streamId next)) (afterPage tables row next count) =
      .ok ((pageRecorded spec tables key budget row count).withContinuation (some (afterPage tables row next count))) := by
    rw [sameSaved] at replaced
    unfold replaceScanContinuation
    rw [accepted, ok_bind]
    exact replaced
  simp only [stepBootstrap, nextSeq, activation, run, ok_bind, advanceBootstrap, cursor, inputRows, and_self, if_true,
    sameState, first_remaining tables next count numbered]
  by_cases empty : tables.state.drop count = []
  · simp only [afterPage, if_pos empty, snapshotContinuation] at moved ⊢
    simp only [bootstrapContinuation, if_true, ok_bind] at moved ⊢
    rw [moved, ok_bind]
  · simp only [afterPage, if_neg empty] at moved ⊢
    simp only [bootstrapContinuation, refuse, ne_eq, not_true_eq_false, decide_false, Bool.false_eq_true, if_false,
      ok_bind] at moved ⊢
    rw [moved]
    rfl

omit numbered positive within page valid data in
theorem booting_fits (booting : Booting tables row) (numbers : tables.output.stream.nextChunkSeq ≠ bigintMax) :
    DataFits tables.output.stream row.activationLsn := by
  refine ⟨numbers, ?_, ?_⟩
  · rw [booting.unpublished]
    rfl
  · cases latest : tables.output.stream.latestDataLsn with
    | none => rfl
    | some lsn => simpa using booting.latest lsn latest

omit numbered positive within page valid data in
-- The spool and the cursor agree again once a page has left.
theorem after_page_phase (before after : ScanTables Row Out) (sameState : after.state = before.state.drop count)
    (numbered : before.state.map Prod.fst = List.range' next before.state.length)
    (sameStream : after.input.stream.streamId = before.input.stream.streamId) (onward : 0 < next + count)
    (booting : Booting after row) : PhaseInvariant after row (some (afterPage before row next count)) := by
  unfold afterPage
  split
  · rw [← sameStream]
    exact .snapshotFrontier booting
  · rw [← sameStream]
    refine .bootstrap (next + count) onward booting ?_
    rw [sameState]
    exact rest_numbers next numbered count

end Bootstrap

section Goes

variable (spec : ScanSpec Row Out) (key : ConsumerKey) {tables : ScanTables Row Out} (budget : WorkBudget)
  (row : StreamConsumer) (good : ScanInvariant spec key tables) (found : tables.input.stream.findConsumer key = some row)
  (next : Nat) (positive : 0 < next) (booting : Booting tables row)
  (numbered : tables.state.map Prod.fst = List.range' next tables.state.length)
  (saved : tables.continuation = some (bootstrapContinuation tables.input.stream.streamId next))

include good positive

omit found in
theorem bootstrap_valid : validateScanContinuation (bootstrapContinuation tables.input.stream.streamId next) = .ok () := by
  simp only [validateScanContinuation, bootstrapContinuation, Nat.ne_of_gt good.streamId, Option.any_some,
    decide_eq_true positive, decide_false, refuse]
  rfl

include found numbered

-- Everything but the output, the spool and the continuation stays.
theorem bootstrapped_invariant (after : ScanTables Row Out) (count : Nat) (sameInput : after.input = tables.input)
    (sameState : after.state = tables.state.drop count) (output : OutputShape after.output.stream)
    (continuation : after.continuation = some (afterPage tables row next count)) (checkpoint : after.hasContinuation = true)
    (afterBooting : Booting after row) : ScanInvariant spec key after := by
  obtain ⟨first, baseline, _⟩ := row_phase spec key tables row good found
  obtain ⟨member, named⟩ := found_consumer tables.input key row found
  have sameStream : after.input.stream.streamId = tables.input.stream.streamId := by rw [sameInput]
  refine ⟨sameInput ▸ good.input, sameInput ▸ good.source, sameInput ▸ good.streamId, sameInput ▸ good.counted, output, ?_,
    row, sameInput ▸ member, named, first, baseline, ?_⟩
  · rw [checkpoint, continuation]
    rfl
  · rw [continuation]
    exact after_page_phase row next count tables after sameState numbered sameStream (Nat.add_pos_left positive _) afterBooting

include booting saved

-- An empty spool turns to the snapshot frontier at once.
theorem empty_spool_goes (empty : tables.state = []) : Goes spec key tables budget row := by
  obtain ⟨count, within, page, _⟩ := page_of_spool spec tables budget next numbered good.output.target
  rw [empty] at within page
  have nothing : count = 0 := Nat.le_zero.mp within
  subst nothing
  have accepted := page_continuation_valid tables row next 0 good.streamId (Nat.add_pos_left positive 0)
  have replaced := replace_continuation_ok (spoolRead tables key budget row 0) (some (afterPage tables row next 0)) "Scan"
    rfl
  have sameSaved : (spoolRead tables key budget row 0).tables.continuation =
    some (bootstrapContinuation tables.input.stream.streamId next) := saved
  rw [sameSaved] at replaced
  obtain ⟨moved, committable⟩ := process_commits
    ((spoolRead tables key budget row 0).withContinuation (some (afterPage tables row next 0))) .admitted {} true rfl
    (usage_none _) (fun _ => by simp [withContinuation]) rfl rfl rfl (fun _ wrong => by cases wrong)
    (fun _ wrong => by cases wrong) rfl
  refine ⟨_, .admitted, {}, true, ?_, by simp, committable, ?_, fun frontier published => .inl published⟩
  · rw [execute_saved spec key tables budget row good _ saved rfl (bootstrap_valid spec key good next positive)]
    have sameState : (boundContext tables key budget row).tables.state = [] := empty
    have sameOutput : (boundContext tables key budget row).output = outputState tables.output.stream := rfl
    have sameBudget : (boundContext tables key budget row).budget = budget := rfl
    have run : runBootstrapPrimitive spec (boundContext tables key budget row) next row.activationLsn =
        .ok (spoolRead tables key budget row 0, ⟨{}, none, none, .none⟩) := by
      have unread : spoolRead tables key budget row 0 = boundContext tables key budget row := rfl
      have zero : spec.outputBytes (bootstrapRows []) = 0 := rfl
      have nothing : WorkUsage.validate ⟨0, 0, 0, 0⟩ budget = .ok () := usage_none budget
      rw [unread]
      unfold runBootstrapPrimitive
      simp only [sameState, sameOutput, sameBudget, page, List.take_nil, List.length_nil, if_true, zero, nothing, ok_bind,
        List.map_nil, List.filter_nil, List.min?_nil, List.max?_nil]
      have unspooled : ({ boundContext tables key budget row with tables := { tables with state := [] } } :
          ScanContext Row Out) = boundContext tables key budget row := by
        rw [← empty]
        rfl
      exact congrArg (fun context => Except.ok (context, (⟨{}, none, none, .none⟩ : BootstrapFacts))) unspooled
    have turned : replaceScanContinuation (spoolRead tables key budget row 0)
        (some (bootstrapContinuation tables.input.stream.streamId next)) (afterPage tables row next 0) =
        .ok ((spoolRead tables key budget row 0).withContinuation (some (afterPage tables row next 0))) := by
      unfold replaceScanContinuation
      rw [accepted, ok_bind]
      exact replaced
    have drained : tables.state.drop 0 = [] := empty
    have activation : (boundContext tables key budget row).input.activationLsn = row.activationLsn := rfl
    simp only [afterPage, if_pos drained, snapshotContinuation] at turned moved ⊢
    simp only [stepSaved, bootstrapContinuation, stepBootstrap, run, ok_bind, advanceBootstrap, if_true, activation]
      at turned ⊢
    rw [turned, ok_bind]
    exact moved
  · exact bootstrapped_invariant spec key row good found next positive numbered _ 0 rfl rfl good.output rfl rfl
      ⟨booting.flat, booting.unpublished, booting.latest⟩

theorem spool_goes (flowing : tables.output.stream.backpressured = false) (present : tables.state ≠ [])
    (numbers : tables.output.stream.nextChunkSeq ≠ bigintMax) : Goes spec key tables budget row := by
  obtain ⟨count, within, page, cut⟩ := page_of_spool spec tables budget next numbered good.output.target
  obtain ⟨taken, fits⟩ := cut present
  have valid := page_usage_valid spec tables budget count fits
  have data := booting_fits tables row booting numbers
  have executed := step_bootstrap_ok spec key tables budget row next count numbered taken within page valid data
    good.streamId saved
  have length : (tables.state.take count).length = count := by
    rw [List.length_take]
    omega
  have someRows : bootstrapRows (tables.state.take count) ≠ [] := by
    intro empty
    have none := congrArg List.length empty
    rw [bootstrapRows, List.length_map, length] at none
    exact absurd none (Nat.ne_of_gt taken)
  have resources : resourcesFit tables.output.stream.toStreamLimits .data count
      (spec.outputBytes (bootstrapRows (tables.state.take count))) = true := by
    have counted := fits.counted
    refine page_resources _ _ _ taken (output_bytes_positive spec _ someRows) (Nat.le_trans counted (Nat.min_le_right _ _))
      (fits.sized.imp (fun small => Nat.le_trans small (Nat.min_le_right _ _)) id)
  obtain ⟨moved, committable⟩ := process_commits
    ((pageRecorded spec tables key budget row count).withContinuation (some (afterPage tables row next count))) .admitted
    ⟨pageUsage spec tables count, count, .data tables.output.stream.nextChunkSeq⟩ true rfl valid (fun _ => by
      simp [withContinuation]) rfl ⟨Nat.ne_of_gt taken, by simp⟩ rfl (fun sequence same => by
        obtain rfl := OutputFacts.data.inj same
        exact Nat.ne_of_gt good.output.numbered) (fun pending isPending => by
          obtain rfl := Option.some.inj isPending
          exact ⟨output_ready spec key tables good flowing, rfl, data, resources⟩) rfl
  refine ⟨_, .admitted, pageUsage spec tables count, true, ?_, by simp, committable, ?_, fun frontier published => ?_⟩
  · rw [execute_saved spec key tables budget row good _ saved rfl (bootstrap_valid spec key good next positive)]
    simp only [stepSaved, bootstrapContinuation] at executed ⊢
    rw [executed]
    exact moved
  · refine bootstrapped_invariant spec key row good found next positive numbered _ count rfl rfl
      (output_shape_appended good.output .data _ _ _ _) rfl rfl ⟨booting.flat, booting.unpublished, ?_⟩
    intro lsn isLatest
    obtain rfl := Option.some.inj isLatest
    exact greatest_lsn_le _ _ _ booting.latest (Nat.le_refl _)
  · exact .inl published

end Goes

end Shiba.Linear
