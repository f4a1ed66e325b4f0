import Shiba.Library.Thresholds
import Shiba.Execution.Contract

set_option autoImplicit false

namespace Shiba.Execution

open Thresholds

def u64Max : Nat := 18446744073709551615

def saturatingAdd (a b : Nat) : Nat := min (a + b) u64Max
def saturatingMul (a b : Nat) : Nat := min (a * b) u64Max
def checkedU64 (value : Nat) : Option Nat := if value ≤ u64Max then some value else none

-- The body of the doubling loop at most `rounds` times. A positive u64 doubles
-- no more than 64 times.
def doublingLoop (before intervalCap : Nat) : Nat → Nat → Nat
  | 0, threshold => threshold
  | rounds + 1, threshold =>
      if threshold ≤ before ∧ threshold < intervalCap then
        doublingLoop before intervalCap rounds (min (saturatingMul threshold 2) intervalCap)
      else threshold

def nextThreshold (before quantum intervalCap : Nat) : Option Nat :=
  if before < intervalCap then some (doublingLoop before intervalCap 64 quantum)
  else
    ((checkedU64 (before / intervalCap + 1)).bind fun epoch => checkedU64 (epoch * intervalCap)).filter fun threshold =>
      decide (threshold ≤ bigintMax)

def crossedAdmissionThreshold (before after quantum intervalCap : Nat) (dimension : String) : Except Fault Bool := do
  refuse (decide (quantum = 0) || decide (intervalCap = 0) || decide (intervalCap < quantum))
    s!"invalid admission {dimension} policy"
  refuse (decide (after < before) || decide (bigintMax < after)) s!"invalid admission {dimension} progress"
  if before = bigintMax then return true
  return (nextThreshold before quantum intervalCap).any (fun threshold => decide (threshold ≤ after))
    || decide (after = bigintMax)

structure AdmissionProgress where
  rows : Nat := 0
  bytes : Nat := 0
deriving DecidableEq, Repr

def AdmissionProgress.record (progress : AdmissionProgress) (usage : WorkUsage)
    (rowQuantum rowIntervalCap byteQuantum byteIntervalCap : Nat) : Except Fault (AdmissionProgress × Bool) := do
  refuse (decide (usage.inputRows = 0)) "admission made no input-row progress"
  refuse (decide (usage.inputBytes = 0)) "admission made no input-byte progress"
  let next : AdmissionProgress :=
    { rows := min (saturatingAdd progress.rows usage.inputRows) bigintMax
      bytes := min (saturatingAdd progress.bytes usage.inputBytes) bigintMax }
  let rowDrain ← crossedAdmissionThreshold progress.rows next.rows rowQuantum rowIntervalCap "row"
  let byteDrain ← crossedAdmissionThreshold progress.bytes next.bytes byteQuantum byteIntervalCap "byte"
  return (next, rowDrain || byteDrain)

-- A policy that crossedAdmissionThreshold takes.
structure AdmissionPolicy where
  quantum : Nat
  intervalCap : Nat
  positive : 0 < quantum
  ordered : quantum ≤ intervalCap

namespace AdmissionPolicy

def thresholds (policy : AdmissionPolicy) : Set Nat := geometric policy.quantum policy.intervalCap

theorem cap_positive (policy : AdmissionPolicy) : 0 < policy.intervalCap := Nat.lt_of_lt_of_le policy.positive policy.ordered

-- What makes a dimension ask for a drain.
def Drains (policy : AdmissionPolicy) (before after : Nat) : Prop :=
  Crosses policy.thresholds before after ∨ after = bigintMax

end AdmissionPolicy

-- Every round doubles a threshold that is behind, and the loop ends at the first
-- that is not.
theorem doubling_loop_least {before quantum cap : Nat} (rounds doublings : Nat) (below : before < cap) (fits : before ≤ bigintMax)
    (enough : before < quantum * 2 ^ (doublings + rounds)) (passed : ∀ earlier < doublings, quantum * 2 ^ earlier ≤ before) :
    IsLeast {mark | mark ∈ geometric quantum cap ∧ before < mark}
      (doublingLoop before cap rounds (min (quantum * 2 ^ doublings) cap)) := by
  induction rounds generalizing doublings with
  | zero => exact doubled_least quantum before doublings below enough passed
  | succ rounds ih =>
      by_cases behind : quantum * 2 ^ doublings ≤ before
      · have short : min (quantum * 2 ^ doublings) cap = quantum * 2 ^ doublings := Nat.min_eq_left (by omega)
        have exact : saturatingMul (quantum * 2 ^ doublings) 2 = quantum * 2 ^ (doublings + 1) := by
          have small : quantum * 2 ^ doublings * 2 ≤ u64Max := by
            have wide : bigintMax * 2 ≤ u64Max := by decide
            omega
          rw [saturatingMul, Nat.min_eq_left small, Nat.pow_succ, Nat.mul_assoc]
        have loops : min (quantum * 2 ^ doublings) cap ≤ before ∧ min (quantum * 2 ^ doublings) cap < cap := by
          rw [short]
          omega
        rw [doublingLoop, if_pos loops, short, exact]
        apply ih (doublings + 1)
        · rwa [Nat.add_assoc, Nat.add_comm 1 rounds]
        · intro earlier isEarlier
          exact Nat.le_trans (double_mono quantum earlier doublings (Nat.le_of_lt_succ isEarlier)) behind
      · have ahead := Nat.lt_of_not_le behind
        have stops : ¬ (min (quantum * 2 ^ doublings) cap ≤ before ∧ min (quantum * 2 ^ doublings) cap < cap) := by
          have beyond : before < min (quantum * 2 ^ doublings) cap := lt_min ahead below
          omega
        rw [doublingLoop, if_neg stops]
        exact doubled_least quantum before doublings below ahead passed

section

variable (policy : AdmissionPolicy) (before after : Nat) (progress : AdmissionProgress)

theorem next_threshold_below (below : before < policy.intervalCap) (fits : before ≤ bigintMax) :
    ∃ threshold, nextThreshold before policy.quantum policy.intervalCap = some threshold ∧
      IsLeast {mark | mark ∈ policy.thresholds ∧ before < mark} threshold := by
  refine ⟨doublingLoop before policy.intervalCap 64 policy.quantum, if_pos below, ?_⟩
  have enough : before < policy.quantum * 2 ^ (0 + 64) := by
    have wide : bigintMax < 2 ^ 64 := by decide
    have scaled : 2 ^ 64 ≤ policy.quantum * 2 ^ 64 := Nat.le_mul_of_pos_left (2 ^ 64) policy.positive
    omega
  have least := doubling_loop_least 64 0 below fits enough (by omega)
  rwa [Nat.pow_zero, Nat.mul_one, Nat.min_eq_left policy.ordered] at least

-- A next multiple beyond the bigints is never reached.
theorem next_threshold_above (above : policy.intervalCap ≤ before) (fits : after ≤ bigintMax) :
    (nextThreshold before policy.quantum policy.intervalCap).any (fun threshold => decide (threshold ≤ after)) =
      decide ((before / policy.intervalCap + 1) * policy.intervalCap ≤ after) := by
  have positive := policy.cap_positive
  rw [nextThreshold, if_neg (Nat.not_lt.mpr above)]
  by_cases small : (before / policy.intervalCap + 1) * policy.intervalCap ≤ bigintMax
  · have word : (before / policy.intervalCap + 1) * policy.intervalCap ≤ u64Max := Nat.le_trans small (by decide)
    have epoch : before / policy.intervalCap + 1 ≤ u64Max := Nat.le_trans (Nat.le_mul_of_pos_right _ positive) word
    rw [checkedU64, if_pos epoch, Option.bind_some, checkedU64, if_pos word]
    simp [small]
  · have far : ¬ (before / policy.intervalCap + 1) * policy.intervalCap ≤ after := by omega
    rw [decide_eq_false far, Option.any_eq_false]
    intro threshold isNext
    simp only [Option.filter_eq_some_iff, Option.bind_eq_some_iff, checkedU64] at isNext
    obtain ⟨⟨epoch, isEpoch, isProduct⟩, low⟩ := isNext
    split at isEpoch
    · obtain rfl := Option.some.inj isEpoch
      split at isProduct
      · obtain rfl := Option.some.inj isProduct
        exact absurd (of_decide_eq_true low) small
      · cases isProduct
    · cases isEpoch

-- A dimension asks for a drain when its total meets a threshold or saturates.
theorem crossed_threshold_ok (dimension : String) (rises : before ≤ after) (fits : after ≤ bigintMax) : ∃ drain,
      crossedAdmissionThreshold before after policy.quantum policy.intervalCap dimension = .ok drain ∧
      (drain = true ↔ policy.Drains before after) := by
  have valid : (decide (policy.quantum = 0) || decide (policy.intervalCap = 0) ||
      decide (policy.intervalCap < policy.quantum)) = false := by
    simp [Nat.ne_of_gt policy.positive, Nat.ne_of_gt policy.cap_positive, policy.ordered]
  have progresses : (decide (after < before) || decide (bigintMax < after)) = false := by
    simp [rises, fits]
  unfold crossedAdmissionThreshold
  rw [valid, progresses]
  simp only [not_refused, ok_bind]
  by_cases full : before = bigintMax
  · refine ⟨true, if_pos full, ?_⟩
    have stays : after = bigintMax := by omega
    exact ⟨fun _ => .inr stays, fun _ => rfl⟩
  · rw [if_neg full]
    refine ⟨_, rfl, ?_⟩
    rw [Bool.or_eq_true, decide_eq_true_eq]
    apply or_congr_left
    by_cases below : before < policy.intervalCap
    · obtain ⟨threshold, isNext, least⟩ := next_threshold_below policy before below (Nat.le_trans rises fits)
      rw [isNext, Option.any_some, decide_eq_true_eq]
      exact (crosses_first after least).symm
    · have above := Nat.le_of_not_lt below
      rw [next_threshold_above policy before after above fits, decide_eq_true_eq]
      exact (crosses_first after (epoch_least policy.quantum before policy.cap_positive above)).symm

-- Admissions one after another, each with whether it asked for a drain.
def recordAll (rows bytes : AdmissionPolicy) (progress : AdmissionProgress) :
    List WorkUsage → Except Fault (AdmissionProgress × List Bool)
  | [] => .ok (progress, [])
  | usage :: rest => do
      let (progress, drain) ← progress.record usage rows.quantum rows.intervalCap bytes.quantum bytes.intervalCap
      let (progress, drains) ← recordAll rows bytes progress rest
      return (progress, drain :: drains)

-- An admission makes progress in both dimensions.
def WorkUsage.Progresses (usage : WorkUsage) : Prop := 0 < usage.inputRows ∧ 0 < usage.inputBytes

def admittedRows (usages : List WorkUsage) : Nat := (usages.map WorkUsage.inputRows).sum
def admittedBytes (usages : List WorkUsage) : Nat := (usages.map WorkUsage.inputBytes).sum

def AdmissionProgress.Fits (progress : AdmissionProgress) : Prop := progress.rows ≤ bigintMax ∧ progress.bytes ≤ bigintMax

-- The totals once they have risen, as far as a bigint goes.
def AdmissionProgress.raised (progress : AdmissionProgress) (rows bytes : Nat) : AdmissionProgress :=
  ⟨min (progress.rows + rows) bigintMax, min (progress.bytes + bytes) bigintMax⟩

theorem raised_twice (rows bytes moreRows moreBytes : Nat) :
    (progress.raised rows bytes).raised moreRows moreBytes = progress.raised (rows + moreRows) (bytes + moreBytes) := by
  simp only [AdmissionProgress.raised, AdmissionProgress.mk.injEq]
  omega

theorem raised_fits (rows bytes : Nat) : (progress.raised rows bytes).Fits :=
  ⟨Nat.min_le_right _ _, Nat.min_le_right _ _⟩

theorem raised_nothing (fits : progress.Fits) : progress.raised 0 0 = progress := by
  obtain ⟨rows, bytes⟩ := fits
  simp [AdmissionProgress.raised, rows, bytes]

end

section Record

variable (rows bytes : AdmissionPolicy)

-- Whether the totals, rising from one progress to another, ask for a drain.
def DrainDue (before after : AdmissionProgress) : Prop :=
  rows.Drains before.rows after.rows ∨ bytes.Drains before.bytes after.bytes

theorem saturating_raised (total added : Nat) : min (saturatingAdd total added) bigintMax = min (total + added) bigintMax := by
  have wide : bigintMax ≤ u64Max := by decide
  rw [saturatingAdd]
  omega

section

variable (progress : AdmissionProgress)

theorem record_ok (fits : progress.Fits) (usage : WorkUsage) (progresses : usage.Progresses) :
    ∃ drain, progress.record usage rows.quantum rows.intervalCap bytes.quantum bytes.intervalCap =
        .ok (progress.raised usage.inputRows usage.inputBytes, drain) ∧
      (drain = true ↔ DrainDue rows bytes progress (progress.raised usage.inputRows usage.inputBytes)) := by
  obtain ⟨someRows, someBytes⟩ := progresses
  have raised := raised_fits progress usage.inputRows usage.inputBytes
  obtain ⟨rowDrain, rowOk, rowDue⟩ := crossed_threshold_ok rows progress.rows
    (progress.raised usage.inputRows usage.inputBytes).rows "row" (le_min (Nat.le_add_right _ _) fits.1) raised.1
  obtain ⟨byteDrain, byteOk, byteDue⟩ := crossed_threshold_ok bytes progress.bytes
    (progress.raised usage.inputRows usage.inputBytes).bytes "byte" (le_min (Nat.le_add_right _ _) fits.2) raised.2
  refine ⟨rowDrain || byteDrain, ?_, ?_⟩
  · have rowsMade : decide (usage.inputRows = 0) = false := decide_eq_false (Nat.ne_of_gt someRows)
    have bytesMade : decide (usage.inputBytes = 0) = false := decide_eq_false (Nat.ne_of_gt someBytes)
    unfold AdmissionProgress.record
    simp only [rowsMade, bytesMade, not_refused, ok_bind, saturating_raised]
    rw [AdmissionProgress.raised] at rowOk byteOk ⊢
    rw [rowOk, ok_bind, byteOk]
    rfl
  · rw [Bool.or_eq_true, rowDue, byteDue]
    rfl

-- A rise asks for a drain exactly when one of its two parts does.
theorem drains_split (policy : AdmissionPolicy) (before middle after : Nat) (first : before ≤ middle) (second : middle ≤ after)
    (fits : after ≤ bigintMax) : policy.Drains before after ↔ policy.Drains before middle ∨ policy.Drains middle after := by
  have split := crosses_split policy.thresholds before middle after first second
  unfold AdmissionPolicy.Drains
  rw [split]
  constructor
  · intro either
    rcases either with (crossed | crossed) | full
    · exact .inl (.inl crossed)
    · exact .inr (.inl crossed)
    · exact .inr (.inr full)
  · intro either
    rcases either with (crossed | full) | (crossed | full)
    · exact .inl (.inl crossed)
    · exact .inr (by omega)
    · exact .inl (.inr crossed)
    · exact .inr full

theorem due_split (fits : progress.Fits) (firstRows firstBytes moreRows moreBytes : Nat) :
    DrainDue rows bytes progress (progress.raised (firstRows + moreRows) (firstBytes + moreBytes)) ↔
      DrainDue rows bytes progress (progress.raised firstRows firstBytes) ∨
      DrainDue rows bytes (progress.raised firstRows firstBytes)
        (progress.raised (firstRows + moreRows) (firstBytes + moreBytes)) := by
  have whole := raised_fits progress (firstRows + moreRows) (firstBytes + moreBytes)
  have rowSplit := drains_split rows progress.rows (progress.raised firstRows firstBytes).rows
    (progress.raised (firstRows + moreRows) (firstBytes + moreBytes)).rows (le_min (Nat.le_add_right _ _) fits.1)
    (min_le_min_right bigintMax (by omega)) whole.1
  have byteSplit := drains_split bytes progress.bytes (progress.raised firstRows firstBytes).bytes
    (progress.raised (firstRows + moreRows) (firstBytes + moreBytes)).bytes (le_min (Nat.le_add_right _ _) fits.2)
    (min_le_min_right bigintMax (by omega)) whole.2
  unfold DrainDue
  rw [rowSplit, byteSplit]
  tauto

theorem due_still (addedRows addedBytes : Nat)
    (due : DrainDue rows bytes (progress.raised addedRows addedBytes) (progress.raised addedRows addedBytes)) :
    DrainDue rows bytes progress (progress.raised addedRows addedBytes) := by
  cases due with
  | inl drains =>
      cases drains with
      | inl crossed =>
          obtain ⟨mark, _, passed, reached⟩ := crossed
          omega
      | inr full => exact .inl (.inr full)
  | inr drains =>
      cases drains with
      | inl crossed =>
          obtain ⟨mark, _, passed, reached⟩ := crossed
          omega
      | inr full => exact .inr (.inr full)

end

-- Pages ask for a drain between them exactly when they would as one admission.
theorem record_all_ok (pages : List WorkUsage) (progress : AdmissionProgress) (fits : progress.Fits)
    (progresses : ∀ usage ∈ pages, usage.Progresses) : ∃ drains,
      recordAll rows bytes progress pages = .ok (progress.raised (admittedRows pages) (admittedBytes pages), drains) ∧
      (pages ≠ [] → (true ∈ drains ↔
        DrainDue rows bytes progress (progress.raised (admittedRows pages) (admittedBytes pages)))) := by
  induction pages generalizing progress with
  | nil =>
      refine ⟨[], ?_, fun absent => absurd rfl absent⟩
      rw [recordAll, admittedRows, admittedBytes]
      exact congrArg (fun progress => Except.ok (progress, [])) (raised_nothing progress fits).symm
  | cons usage rest ih =>
      obtain ⟨drain, recorded, due⟩ := record_ok rows bytes progress fits usage (progresses usage List.mem_cons_self)
      obtain ⟨drains, rested, rule⟩ := ih (progress.raised usage.inputRows usage.inputBytes) (raised_fits progress _ _)
        fun other member => progresses other (List.mem_cons_of_mem usage member)
      have rowsSum : admittedRows (usage :: rest) = usage.inputRows + admittedRows rest := rfl
      have bytesSum : admittedBytes (usage :: rest) = usage.inputBytes + admittedBytes rest := rfl
      rw [raised_twice] at rested rule
      refine ⟨drain :: drains, ?_, ?_⟩
      · rw [recordAll, recorded, ok_bind]
        simp only
        rw [rested, rowsSum, bytesSum]
        rfl
      · intro _
        rw [rowsSum, bytesSum, due_split rows bytes progress fits, ← due, List.mem_cons, eq_comm]
        by_cases last : rest = []
        · subst last
          obtain ⟨_, none⟩ := Prod.mk.inj (Except.ok.inj rested)
          have empty : true ∉ drains := by
            rw [← none]
            exact List.not_mem_nil
          have still : DrainDue rows bytes (progress.raised usage.inputRows usage.inputBytes)
              (progress.raised (usage.inputRows + admittedRows []) (usage.inputBytes + admittedBytes [])) → drain = true :=
            fun again => due.mpr (due_still rows bytes progress _ _ again)
          tauto
        · rw [rule last]

end Record

theorem admitted_rows_append (first second : List WorkUsage) :
    admittedRows (first ++ second) = admittedRows first + admittedRows second := by
  rw [admittedRows, List.map_append, List.sum_append]
  rfl

theorem admitted_bytes_append (first second : List WorkUsage) :
    admittedBytes (first ++ second) = admittedBytes first + admittedBytes second := by
  rw [admittedBytes, List.map_append, List.sum_append]
  rfl

-- A counter that rises by pages, none of which asks for a drain, has not risen by
-- the greatest interval.
theorem quiet_stretch {policy : AdmissionPolicy} {amount : WorkUsage → Nat} {total : Nat} {pages : List WorkUsage}
    (quiet : ∀ count < pages.length, ¬ policy.Drains (min (total + ((pages.take count).map amount).sum) bigintMax)
      (min (total + ((pages.take (count + 1)).map amount).sum) bigintMax)) :
    (pages.map amount).sum < max policy.quantum policy.intervalCap := by
  have still : ∀ count ≤ pages.length, ¬ Crosses policy.thresholds (min total bigintMax)
      (min (total + ((pages.take count).map amount).sum) bigintMax) := by
    intro count
    induction count with
    | zero =>
        intro _ crossed
        obtain ⟨mark, _, passed, reached⟩ := crossed
        rw [List.take_zero, List.map_nil, List.sum_nil, Nat.add_zero] at reached
        omega
    | succ count ih =>
        intro within
        have steps : ((pages.take count).map amount).sum ≤ ((pages.take (count + 1)).map amount).sum := by
          rw [List.take_add_one, List.map_append, List.sum_append]
          omega
        rw [crosses_split policy.thresholds (min total bigintMax) (min (total + ((pages.take count).map amount).sum) bigintMax)
          _ (by omega) (by omega)]
        intro either
        cases either with
        | inl earlier => exact ih (by omega) earlier
        | inr here => exact quiet count within (.inl here)
  have widest : policy.intervalCap ≤ max policy.quantum policy.intervalCap := Nat.le_max_right _ _
  by_cases none : pages = []
  · subst none
    have positive := policy.cap_positive
    simp only [List.map_nil, List.sum_nil]
    omega
  · have some := List.length_pos_iff.mpr none
    have gap := geometric_gap policy.quantum _ _ policy.cap_positive (still pages.length (Nat.le_refl _))
    have last := quiet (pages.length - 1) (by omega)
    have unsaturated : ¬ min (total + ((pages.take (pages.length - 1 + 1)).map amount).sum) bigintMax = bigintMax :=
      fun full => last (.inr full)
    rw [Nat.sub_add_cancel some, List.take_length] at unsaturated
    rw [List.take_length] at gap
    omega

-- What drain scheduling does after a reset and any admissions.
structure DrainLaw (rows bytes : AdmissionPolicy) (admitted : List WorkUsage) (progress : AdmissionProgress) : Prop where
  counted : progress = ⟨min (admittedRows admitted) bigintMax, min (admittedBytes admitted) bigintMax⟩
  signals : ∀ usage : WorkUsage, usage.Progresses → ∃ next drain,
    progress.record usage rows.quantum rows.intervalCap bytes.quantum bytes.intervalCap = .ok (next, drain) ∧
      next = ⟨min (admittedRows (admitted ++ [usage])) bigintMax, min (admittedBytes (admitted ++ [usage])) bigintMax⟩ ∧
      (drain = true ↔ rows.Drains progress.rows next.rows ∨ bytes.Drains progress.bytes next.bytes) ∧
      ∀ pages, (∀ page ∈ pages, WorkUsage.Progresses page) → admittedRows pages = usage.inputRows →
        admittedBytes pages = usage.inputBytes → ∃ drains, recordAll rows bytes progress pages = .ok (next, drains) ∧
          (true ∈ drains ↔ drain = true)
  rowsQuiet : ∀ earlier later, admitted = earlier ++ later →
    (∀ count < later.length, ¬ rows.Drains (min (admittedRows (earlier ++ later.take count)) bigintMax)
      (min (admittedRows (earlier ++ later.take (count + 1))) bigintMax)) →
    admittedRows later < max rows.quantum rows.intervalCap
  bytesQuiet : ∀ earlier later, admitted = earlier ++ later →
    (∀ count < later.length, ¬ bytes.Drains (min (admittedBytes (earlier ++ later.take count)) bigintMax)
      (min (admittedBytes (earlier ++ later.take (count + 1))) bigintMax)) →
    admittedBytes later < max bytes.quantum bytes.intervalCap

-- Drains are due where the totals meet the thresholds or saturate, however the
-- input is paged.
theorem admission_drains (rows bytes : AdmissionPolicy) (admitted : List WorkUsage)
    (progresses : ∀ usage ∈ admitted, usage.Progresses) : ∃ progress drains,
      recordAll rows bytes {} admitted = .ok (progress, drains) ∧ DrainLaw rows bytes admitted progress := by
  have fresh : AdmissionProgress.Fits {} := ⟨Nat.zero_le _, Nat.zero_le _⟩
  obtain ⟨drains, recorded, _⟩ := record_all_ok rows bytes admitted {} fresh progresses
  have counted : AdmissionProgress.raised {} (admittedRows admitted) (admittedBytes admitted) =
      ⟨min (admittedRows admitted) bigintMax, min (admittedBytes admitted) bigintMax⟩ := by
    simp [AdmissionProgress.raised]
  refine ⟨_, drains, recorded, counted, ?_, ?_, ?_⟩
  · intro usage some
    have fits := raised_fits {} (admittedRows admitted) (admittedBytes admitted)
    obtain ⟨drain, once, due⟩ := record_ok rows bytes _ fits usage some
    refine ⟨_, drain, once, ?_, due, ?_⟩
    · rw [raised_twice, admitted_rows_append, admitted_bytes_append]
      simp [AdmissionProgress.raised, admittedRows, admittedBytes]
    · intro pages parts sameRows sameBytes
      obtain ⟨signals, paged, rule⟩ := record_all_ok rows bytes pages _ fits parts
      have several : pages ≠ [] := by
        intro none
        rw [none] at sameRows
        exact absurd sameRows (Nat.ne_of_lt some.1)
      rw [sameRows, sameBytes] at paged rule
      exact ⟨signals, paged, (rule several).trans due.symm⟩
  · intro earlier later _ quiet
    apply quiet_stretch
    intro count within
    have here := quiet count within
    rwa [admitted_rows_append, admitted_rows_append] at here
  · intro earlier later _ quiet
    apply quiet_stretch
    intro count within
    have here := quiet count within
    rwa [admitted_bytes_append, admitted_bytes_append] at here

-- Seven rows are below a quantum of eight, and one more meets it.
theorem admission_drains_once : ∃ progress drains,
    recordAll ⟨8, 32, by decide, by decide⟩ ⟨100, 400, by decide, by decide⟩ {} [⟨7, 9, 0, 0⟩, ⟨1, 1, 0, 0⟩] =
      .ok (progress, drains) ∧
    DrainLaw ⟨8, 32, by decide, by decide⟩ ⟨100, 400, by decide, by decide⟩ [⟨7, 9, 0, 0⟩, ⟨1, 1, 0, 0⟩] progress ∧
    drains = [false, true] := by
  have progresses : ∀ usage ∈ [⟨7, 9, 0, 0⟩, (⟨1, 1, 0, 0⟩ : WorkUsage)], usage.Progresses := by
    intro usage member
    rcases List.mem_cons.mp member with rfl | rest
    · exact ⟨by decide, by decide⟩
    · obtain rfl := List.mem_singleton.mp rest
      exact ⟨by decide, by decide⟩
  obtain ⟨progress, drains, recorded, law⟩ := admission_drains ⟨8, 32, by decide, by decide⟩
    ⟨100, 400, by decide, by decide⟩ [⟨7, 9, 0, 0⟩, ⟨1, 1, 0, 0⟩] progresses
  have evaluated : (recordAll ⟨8, 32, by decide, by decide⟩ ⟨100, 400, by decide, by decide⟩ {}
      [⟨7, 9, 0, 0⟩, ⟨1, 1, 0, 0⟩]).map Prod.snd = .ok [false, true] := by decide
  rw [recorded] at evaluated
  exact ⟨progress, drains, recorded, law, Except.ok.inj evaluated⟩

end Shiba.Execution
