import Shiba.Join.Finalize

set_option autoImplicit false

namespace Shiba.Join

open Shiba.Execution Weighted Transition

section

variable {Row : Type} [DecidableEq Row] (spec : JoinSpec Row)

-- The next row of an input, a page of its candidates, or its end. `accepted`
-- says which rows the inputs offer.
inductive Offered (accepted : List ((InputSide × Row) × Int) → InputSide → Row → Int → Prop) (state : JoinState Row) :
    Choice Row → Prop where
  | start (row : Row) (event : InputEventFacts) (idle : state.current = none) (placed : event.positions.validate = .ok ())
      (weighed : event.weight ≠ 0) (measured : event.rowBytes ≠ 0)
      (natural : 0 ≤ bagOf state.consumed event.side row + event.weight)
      (admitted : accepted state.consumed event.side row event.weight) : Offered accepted state (.start row event)
  | candidates (current : Current Row) (progress : InputProgress) (pending : Option CandidateExpectation) (count : Nat)
      (budget : WorkBudget) (here : state.current = some current) (continued : current.continuation = scanAt pending progress)
      (bounded : Bounded budget)
      (taken : remaining spec current.event.side current.row (cursor progress)
        (state.arrangement current.event.side.opposite) ≠ [] → 0 < count)
      (fitting : Fitting spec current.event.side budget ((remaining spec current.event.side current.row (cursor progress)
        (state.arrangement current.event.side.opposite)).take count)) : Offered accepted state (.candidates count budget)
  | finalize (current : Current Row) (progress : InputProgress) (budget : WorkBudget) (here : state.current = some current)
      (continued : current.continuation = .finalize progress) : Offered accepted state (.finalize budget)

inductive Consistent (state : JoinState Row) : Prop where
  | idle (free : state.current = none)
      (settled : Settled spec state.consumed state.arrangement state.nextRowId state.outputs) : Consistent state
  | scanning (current : Current Row) (progress : InputProgress) (entries : List (Entry Row))
      (outputs : List (OutputRow Row × Int)) (pending : Option CandidateExpectation) (done rest : List (Entry Row))
      (scan : InProgress spec state current progress entries outputs pending done rest)
      (continued : current.continuation = scanAt pending progress) : Consistent state
  | scanned (current : Current Row) (progress : InputProgress) (entries : List (Entry Row))
      (outputs : List (OutputRow Row × Int)) (done : List (Entry Row))
      (scan : InProgress spec state current progress entries outputs none done [])
      (continued : current.continuation = .finalize progress) : Consistent state

-- Whatever is offered is taken, and keeps the invariant.
theorem step_consistent (state : JoinState Row) (choice : Choice Row) (consistent : Consistent spec state)
    (offered : Offered spec (Representable spec) state choice) :
    ∃ after, joinStep spec state choice = .ok after ∧ Consistent spec after := by
  cases offered with
  | start row event idle placed weighed measured natural representable =>
      cases consistent with
      | idle free settled =>
          have valid : event.validate = .ok () := by
            rw [InputEventFacts.validate, placed, ok_bind, refuse_false (decide_eq_false weighed), ok_bind,
              refuse_false (decide_eq_false measured)]
          obtain ⟨after, current, progress, rest, stepped, continued, scan⟩ :=
            start_ok spec state row event idle settled valid natural representable
          exact ⟨after, stepped, .scanning current progress _ _ none [] rest scan continued⟩
      | scanning current progress entries outputs pending done rest scan continued
      | scanned current progress entries outputs done scan continued =>
          rw [scan.here] at idle
          cases idle
  | candidates current progress pending count budget here continued bounded taken fitting =>
      cases consistent with
      | idle free settled =>
          rw [free] at here
          cases here
      | scanning held known entries outputs begun done rest scan held_at =>
          rw [scan.here] at here
          obtain rfl := Option.some.inj here
          obtain ⟨rfl, rfl⟩ := scan_at_inj _ _ _ _ (held_at.symm.trans continued)
          rw [remaining_rest spec state held known entries outputs begun done rest scan] at taken fitting
          obtain ⟨after, current', progress', later, done', rest', stepped, scan', ended | ⟨ended, rfl, rfl⟩⟩ :=
            candidates_ok spec state held known entries outputs begun done rest scan count budget continued bounded taken fitting
          · exact ⟨after, stepped, .scanning current' progress' entries outputs later done' rest' scan' ended⟩
          · exact ⟨after, stepped, .scanned current' progress' entries outputs done' scan' ended⟩
      | scanned held known entries outputs done scan held_at =>
          rw [scan.here] at here
          obtain rfl := Option.some.inj here
          exact absurd (continued.symm.trans held_at) (scan_at_open pending progress known)
  | finalize current progress budget here continued =>
      cases consistent with
      | idle free settled =>
          rw [free] at here
          cases here
      | scanning held known entries outputs begun done rest scan held_at =>
          rw [scan.here] at here
          obtain rfl := Option.some.inj here
          exact absurd (held_at.symm.trans continued) (scan_at_open begun known progress)
      | scanned held known entries outputs done scan held_at =>
          obtain ⟨after, stepped, free, settled⟩ := finalize_ok spec budget scan held_at
          exact ⟨after, stepped, .idle free settled⟩

theorem run_consistent (state : JoinState Row)
    (ran : Path (joinStep spec) (Offered spec (Representable spec)) {} state) : Consistent spec state := by
  apply path_invariant (Consistent spec) _ {} state (.idle rfl (settled_start spec)) ran
  intro before choice after consistent offered taken
  obtain ⟨next, stepped, kept⟩ := step_consistent spec before choice consistent offered
  rw [stepped] at taken
  obtain rfl := Except.ok.inj taken
  exact kept

-- Between two rows the output is the SQL join of the bags, and no offered step fails.
theorem join_semantics (state : JoinState Row) (ran : Path (joinStep spec) (Offered spec (Representable spec)) {} state) :
    (state.current = none →
      ∀ key, weight state.outputs key = sqlJoin spec.mode spec.condition (bagOf state.consumed) key) ∧
    ∀ choice, Offered spec (Representable spec) state choice → ∃ after, joinStep spec state choice = .ok after := by
  have consistent := run_consistent spec state ran
  constructor
  · intro free
    cases consistent with
    | idle _ settled => exact settled.joined
    | scanning current progress entries outputs pending done rest scan continued =>
        rw [scan.here] at free
        cases free
    | scanned current progress entries outputs done scan continued =>
        rw [scan.here] at free
        cases free
  · intro choice offered
    obtain ⟨after, stepped, _⟩ := step_consistent spec state choice consistent offered
    exact ⟨after, stepped⟩

end

-- A join of rows without columns that all match.
def oneRow (mode : JoinMode) : JoinSpec Unit where
  mode := mode
  condition _ _ := .true
  probed _ _ _ := true
  rowBytes _ _ := 1
  pairBytes _ _ := 1
  singleBytes _ _ := 1
  skipped _ _ _ hidden := by cases hidden
  rowMeasured _ _ := by decide
  pairMeasured _ _ := by decide
  singleMeasured _ _ := by decide

def oneRowEvent (side : InputSide) (weight : Int) : InputEventFacts where
  side := side
  positions := ⟨⟨1, 1, 0⟩, ⟨1, 1, 0⟩⟩
  weight := weight
  rowBytes := 1

def oneRowBudget : WorkBudget := { maxInputRows := 1, maxInputBytes := 1, maxOutputRows := 1, maxOutputBytes := 1 }

def afterChoices (mode : JoinMode) (choices : List (Choice Unit)) : JoinState Unit :=
  attempts (joinStep (oneRow mode)) {} choices

abbrev wideRun : List (Choice Unit) :=
  [.start () (oneRowEvent .left bigintMax), .candidates 1 oneRowBudget, .finalize oneRowBudget, .start () (oneRowEvent .right 2)]


abbrev matchedRun : List (Choice Unit) :=
  [.start () (oneRowEvent .left 1), .candidates 1 oneRowBudget, .finalize oneRowBudget,
   .start () (oneRowEvent .right 1), .candidates 1 oneRowBudget, .candidates 1 oneRowBudget, .finalize oneRowBudget]

theorem small_representable (consumed : List ((InputSide × Unit) × Int)) (side : InputSide) (row : Unit)
    (bags : ∀ other row, 0 ≤ bagOf consumed other row ∧ bagOf consumed other row ≤ 1)
    (meetings : ∀ other row truth, meeting (oneRow .left) consumed other row truth ≤ 1) :
    Representable (oneRow .left) consumed side row 1 := by
  have wide : (3 : Int) ≤ bigintMax := by decide
  have own := bags side row
  have matched := meetings side row .true
  have unknown := meetings side row .unknown
  refine ⟨by omega, by omega, by omega, ?_, ?_⟩
  · intro other truth _ _ _
    have there := meetings side.opposite other truth
    omega
  · intro other _ _ _
    have there := bags side.opposite other
    omega

theorem matched_run_path :
    Path (joinStep (oneRow .left)) (Offered (oneRow .left) (Representable (oneRow .left))) {} (afterChoices .left matchedRun) := by
  have first : Offered (oneRow .left) (Representable (oneRow .left)) {} matchedRun[0] :=
    .start () (oneRowEvent .left 1) rfl rfl (by decide) (by decide) (by decide)
      (small_representable [] .left () (by rintro other ⟨⟩; cases other <;> decide)
        (by rintro other ⟨⟩ truth; cases other <;> cases truth <;> decide))
  have second : Offered (oneRow .left) (Representable (oneRow .left)) (afterChoices .left (matchedRun.take 1)) matchedRun[1] :=
    .candidates _ _ none 1 oneRowBudget rfl rfl ⟨by decide, by decide, by decide⟩ (fun _ => by decide) ⟨by decide, by decide⟩
  have third : Offered (oneRow .left) (Representable (oneRow .left)) (afterChoices .left (matchedRun.take 2)) matchedRun[2] :=
    .finalize _ _ oneRowBudget rfl rfl
  have fourth : Offered (oneRow .left) (Representable (oneRow .left)) (afterChoices .left (matchedRun.take 3)) matchedRun[3] :=
    .start () (oneRowEvent .right 1) rfl rfl (by decide) (by decide) (by decide)
      (small_representable [((.left, ()), 1)] .right () (by rintro other ⟨⟩; cases other <;> decide)
        (by rintro other ⟨⟩ truth; cases other <;> cases truth <;> decide))
  have fifth : Offered (oneRow .left) (Representable (oneRow .left)) (afterChoices .left (matchedRun.take 4)) matchedRun[4] :=
    .candidates _ _ none 1 oneRowBudget rfl rfl ⟨by decide, by decide, by decide⟩ (fun _ => by decide) ⟨by decide, by decide⟩
  have sixth : Offered (oneRow .left) (Representable (oneRow .left)) (afterChoices .left (matchedRun.take 5)) matchedRun[5] :=
    .candidates _ _ (some _) 1 oneRowBudget rfl rfl ⟨by decide, by decide, by decide⟩ (fun _ => by decide) ⟨by decide, by decide⟩
  have seventh : Offered (oneRow .left) (Representable (oneRow .left)) (afterChoices .left (matchedRun.take 6)) matchedRun[6] :=
    .finalize _ _ oneRowBudget rfl rfl
  exact .next _ _ _ (.next _ _ _ (.next _ _ _ (.next _ _ _ (.next _ _ _ (.next _ _ _ (.next _ _ _ .here first rfl) second rfl)
    third rfl) fourth rfl) fifth rfl) sixth rfl) seventh rfl

theorem join_semantics_matched : weight (afterChoices .left matchedRun).outputs (.pair () ()) =
    sqlJoin .left (fun _ _ => .true) (bagOf (afterChoices .left matchedRun).consumed) (.pair () ()) :=
  (join_semantics (oneRow .left) (afterChoices .left matchedRun) matched_run_path).1 rfl (.pair () ())

theorem wide_started (accepted : List ((InputSide × Unit) × Int) → InputSide → Unit → Int → Prop)
    (admitted : accepted [] .left () bigintMax) (again : accepted [((.left, ()), (bigintMax : Int))] .right () 2) :
    Path (joinStep (oneRow .inner)) (Offered (oneRow .inner) accepted) {} (afterChoices .inner wideRun) := by
  have first : Offered (oneRow .inner) accepted {} wideRun[0] :=
    .start () (oneRowEvent .left bigintMax) rfl rfl (by decide) (by decide) (by decide) admitted
  have second : Offered (oneRow .inner) accepted (afterChoices .inner (wideRun.take 1)) wideRun[1] :=
    .candidates _ _ none 1 oneRowBudget rfl rfl ⟨by decide, by decide, by decide⟩ (fun _ => by decide) ⟨by decide, by decide⟩
  have third : Offered (oneRow .inner) accepted (afterChoices .inner (wideRun.take 2)) wideRun[2] :=
    .finalize _ _ oneRowBudget rfl rfl
  have fourth : Offered (oneRow .inner) accepted (afterChoices .inner (wideRun.take 3)) wideRun[3] :=
    .start () (oneRowEvent .right 2) rfl rfl (by decide) (by decide) (by decide) again
  exact .next _ _ _ (.next _ _ _ (.next _ _ _ (.next _ _ _ .here first rfl) second rfl) third rfl) fourth rfl

theorem wide_pair_rejected : ¬ ∀ state,
    Path (joinStep (oneRow .inner)) (Offered (oneRow .inner) fun _ _ _ _ => True) {} state →
      (state.current = none →
        ∀ key, weight state.outputs key = sqlJoin (oneRow .inner).mode (oneRow .inner).condition (bagOf state.consumed) key) ∧
      ∀ choice, Offered (oneRow .inner) (fun _ _ _ _ => True) state choice →
        ∃ after, joinStep (oneRow .inner) state choice = .ok after := by
  intro all
  have offered : Offered (oneRow .inner) (fun _ _ _ _ => True) (afterChoices .inner wideRun) (.candidates 1 oneRowBudget) :=
    .candidates _ _ none 1 oneRowBudget rfl rfl ⟨by decide, by decide, by decide⟩ (fun _ => by decide) ⟨by decide, by decide⟩
  obtain ⟨after, stepped⟩ := (all _ (wide_started _ trivial trivial)).2 _ offered
  have rejected : joinStep (oneRow .inner) (afterChoices .inner wideRun) (.candidates 1 oneRowBudget) =
    .error (.failed "Join pair weight underflow or overflow") := rfl
  rw [rejected] at stepped
  cases stepped

end Shiba.Join
