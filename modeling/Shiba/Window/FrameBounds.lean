import Shiba.Window.Frames

set_option autoImplicit false

namespace Shiba.Window

open Shiba.Execution Spans

section Peers

variable {rows : Nat}

variable (peers : List Peer) (next ordinal : Int)

theorem peer_bounds (contiguous : Contiguous rows next peers) (index : Nat) (peer : Peer) (found : peers[index]? = some peer) :
    next ≤ peer.firstOrdinal ∧ peer.firstOrdinal ≤ peer.lastOrdinal ∧ peer.lastOrdinal ≤ rows := by
  induction peers generalizing next index peer with
  | nil => cases found
  | cons head rest ih =>
      obtain ⟨starts, filled, others⟩ := contiguous
      cases index with
      | zero =>
          obtain rfl := Option.some.inj found
          refine ⟨Int.le_of_eq starts.symm, filled, ?_⟩
          cases rest with
          | nil =>
              have ends : head.lastOrdinal + 1 = rows + 1 := others
              omega
          | cons second rest =>
              have later := ih (head.lastOrdinal + 1) others 0 second rfl
              omega
      | succ index =>
          have later := ih (head.lastOrdinal + 1) others index peer found
          omega

theorem position_positive : 1 ≤ peerPosition peers ordinal := by
  cases peers with
  | nil => exact Nat.le_refl _
  | cons head rest =>
      rw [peerPosition]
      split <;> omega

variable (contiguous : Contiguous rows next peers) (low : next ≤ ordinal)

include contiguous low

theorem position_counted :
    (peerPosition peers ordinal : Nat) + next ≤ ordinal + 1 := by
  induction peers generalizing next with
  | nil =>
      rw [peerPosition]
      omega
  | cons head rest ih =>
      obtain ⟨starts, filled, others⟩ := contiguous
      rw [peerPosition]
      by_cases here : ordinal ≤ head.lastOrdinal
      · rw [if_pos here]
        omega
      · rw [if_neg here]
        have later := ih (head.lastOrdinal + 1) others (by omega)
        omega

-- Where a row stands among the peers.
theorem position_bounds (index : Nat) (peer : Peer) (found : peers[index]? = some peer) :
    (peer.firstOrdinal ≤ ordinal ↔ index + 1 ≤ peerPosition peers ordinal) ∧
      (ordinal ≤ peer.lastOrdinal ↔ peerPosition peers ordinal ≤ index + 1) := by
  induction peers generalizing next index with
  | nil => cases found
  | cons head rest ih =>
      have bounds := peer_bounds (head :: rest) next contiguous index peer found
      obtain ⟨starts, filled, others⟩ := contiguous
      rw [peerPosition]
      by_cases here : ordinal ≤ head.lastOrdinal
      · rw [if_pos here]
        cases index with
        | zero =>
            obtain rfl := Option.some.inj found
            omega
        | succ index =>
            have later := peer_bounds rest _ others index peer found
            omega
      · rw [if_neg here]
        have positive := position_positive rest ordinal
        cases index with
        | zero =>
            obtain rfl := Option.some.inj found
            omega
        | succ index =>
            have later := ih _ others (by omega) index found
            omega

theorem position_found (high : ordinal ≤ rows) :
    ∃ index own, peerPosition peers ordinal = index + 1 ∧ peers[index]? = some own := by
  induction peers generalizing next with
  | nil =>
      have ends : next = rows + 1 := contiguous
      omega
  | cons head rest ih =>
      obtain ⟨starts, filled, others⟩ := contiguous
      rw [peerPosition]
      by_cases here : ordinal ≤ head.lastOrdinal
      · exact ⟨0, head, if_pos here, rfl⟩
      · obtain ⟨index, own, there, found⟩ := ih _ others (by omega)
        refine ⟨index + 1, own, ?_, found⟩
        rw [if_neg here, there]

end Peers

section Bounds

variable (table : PeerTable)

theorem lookup_bounds (peerId : Int) (peer : Peer) (found : table.lookup peerId = some peer) :
    1 ≤ peer.firstOrdinal ∧ peer.firstOrdinal ≤ peer.lastOrdinal ∧ peer.lastOrdinal ≤ table.partitionRows ∧
      ∀ row : Int, 1 ≤ row → row ≤ table.partitionRows →
        (peer.firstOrdinal ≤ row ↔ peerId ≤ table.peerId row) ∧ (row ≤ peer.lastOrdinal ↔ table.peerId row ≤ peerId) := by
  unfold PeerTable.lookup at found
  by_cases low : peerId < 1
  · rw [if_pos low] at found
    cases found
  · rw [if_neg low] at found
    obtain ⟨starts, filled, ends⟩ := peer_bounds table.peers 1 table.contiguous _ peer found
    refine ⟨starts, filled, ends, ?_⟩
    intro row above below
    have place := position_bounds table.peers 1 row table.contiguous above _ peer found
    unfold PeerTable.peerId
    omega

theorem lookup_own (row : Int) (low : 1 ≤ row) (high : row ≤ table.partitionRows) :
    1 ≤ table.peerId row ∧ table.peerId row ≤ row ∧ ∃ own, table.lookup (table.peerId row) = some own := by
  obtain ⟨index, own, place, found⟩ := position_found table.peers 1 row table.contiguous low high
  have counted := position_counted table.peers 1 row table.contiguous low
  rw [PeerTable.peerId]
  refine ⟨by omega, by omega, own, ?_⟩
  rw [place]
  rw [PeerTable.lookup, if_neg (by omega), Int.natCast_succ, Int.add_sub_cancel, Int.toNat_natCast]
  exact found

-- Every row stands before a place that no peer has.
theorem lookup_behind (peerId row : Int) (positive : 1 ≤ peerId) (missing : table.lookup peerId = none) (low : 1 ≤ row)
    (high : row ≤ table.partitionRows) : table.peerId row < peerId := by
  obtain ⟨index, own, place, found⟩ := position_found table.peers 1 row table.contiguous low high
  obtain ⟨inside, _⟩ := List.getElem?_eq_some_iff.mp found
  rw [PeerTable.lookup, if_neg (by omega), List.getElem?_eq_none_iff] at missing
  rw [PeerTable.peerId, place]
  omega

def FrameBound.offsetFree : FrameBound Nat → Prop
  | .unbounded | .currentRow => True
  | .preceding _ | .following _ => False

variable (mode : FrameMode) (ordinal : Int) (own : Peer) (low : 1 ≤ ordinal) (high : ordinal ≤ table.partitionRows)
  (isOwn : table.lookup (table.peerId ordinal) = some own)

include low high isOwn

-- The start of a frame, unless it is one past the largest ordinal.
theorem base_start (bound : FrameBound Nat) (supported : mode = .range → bound.offsetFree) :
    (∃ fault, baseStart table mode ordinal own bound = .error fault ∧ table.partitionRows = bigintMax ∧
      reachesStart (framePosition table mode ordinal) (framePosition table mode table.partitionRows) bound = false) ∨
    ∃ start, baseStart table mode ordinal own bound = .ok start ∧ 1 ≤ start ∧ start ≤ bigintMax ∧
      ∀ row : Int, 1 ≤ row → row ≤ table.partitionRows →
        (start ≤ row ↔ reachesStart (framePosition table mode ordinal) (framePosition table mode row) bound = true) := by
  have counted := table.counted
  have ownBounds := lookup_bounds table _ own isOwn
  have some : (1 : Int) ≤ table.partitionRows := by omega
  -- One past the last row, where the bound takes in no row.
  have behind (nothing : ∀ row : Int, 1 ≤ row → row ≤ (table.partitionRows : Int) →
        reachesStart (framePosition table mode ordinal) (framePosition table mode row) bound = false)
      (value : baseStart table mode ordinal own bound = bigint (table.partitionRows + 1)) :
      (∃ fault, baseStart table mode ordinal own bound = .error fault ∧ table.partitionRows = bigintMax ∧
        reachesStart (framePosition table mode ordinal) (framePosition table mode table.partitionRows) bound = false) ∨
      ∃ start, baseStart table mode ordinal own bound = .ok start ∧ 1 ≤ start ∧ start ≤ bigintMax ∧
        ∀ row : Int, 1 ≤ row → row ≤ table.partitionRows →
          (start ≤ row ↔ reachesStart (framePosition table mode ordinal) (framePosition table mode row) bound = true) := by
    by_cases full : table.partitionRows = bigintMax
    · left
      refine ⟨.failed "bigint out of range", ?_, full, nothing _ some (Int.le_refl _)⟩
      rw [value]
      exact bigint_over _ (by omega)
    · right
      refine ⟨table.partitionRows + 1, ?_, by omega, by omega, ?_⟩
      · rw [value]
        exact bigint_ok _ (by omega) (by omega)
      · intro row above below
        rw [nothing row above below]
        simp only [Bool.false_eq_true, iff_false]
        omega
  cases bound with
  | unbounded =>
      right
      refine ⟨1, rfl, Int.le_refl _, by omega, ?_⟩
      intro row above _
      simp only [reachesStart, iff_true]
      exact above
  | currentRow =>
      right
      refine ⟨_, rfl, ?_, ?_, ?_⟩
      · split <;> omega
      · split <;> omega
      · intro row above below
        rw [reachesStart, decide_eq_true_eq, framePosition, framePosition]
        by_cases isRows : mode = .rows
        · rw [if_pos isRows, if_pos isRows, if_pos isRows]
        · rw [if_neg isRows, if_neg isRows, if_neg isRows]
          exact (ownBounds.2.2.2 row above below).1
  | preceding offset =>
      right
      cases mode with
      | rows =>
          refine ⟨max 1 (ordinal - offset), bigint_ok _ (by omega) (by omega), by omega, by omega, ?_⟩
          intro row above below
          rw [reachesStart, decide_eq_true_eq]
          change max 1 (ordinal - (offset : Int)) ≤ row ↔ ordinal - (offset : Int) ≤ row
          omega
      | groups =>
          obtain ⟨positive, counting, _⟩ := lookup_own table ordinal low high
          have isId : bigint (max 1 (table.peerId ordinal - offset)) = .ok (max 1 (table.peerId ordinal - offset)) :=
            bigint_ok _ (by omega) (by omega)
          have present : table.lookup (max 1 (table.peerId ordinal - offset)) ≠ none := by
            intro missing
            have before := lookup_behind table _ 1 (by omega) missing (Int.le_refl _) some
            have before' := lookup_behind table _ ordinal (by omega) missing low high
            have first := (lookup_own table 1 (Int.le_refl _) some).1
            omega
          obtain ⟨other, found⟩ := Option.ne_none_iff_exists'.mp present
          obtain ⟨starts, _, ends, place⟩ := lookup_bounds table _ other found
          refine ⟨other.firstOrdinal, ?_, starts, by omega, ?_⟩
          · rw [baseStart, isId, ok_bind, found]
          · intro row above below
            have here := (lookup_own table row above below).1
            rw [(place row above below).1, reachesStart, decide_eq_true_eq]
            change max 1 (table.peerId ordinal - (offset : Int)) ≤ table.peerId row ↔
              table.peerId ordinal - (offset : Int) ≤ table.peerId row
            omega
      | range => exact absurd (supported rfl) (fun wrong => wrong)
  | following offset =>
      cases mode with
      | rows =>
          by_cases inside : ordinal + offset ≤ table.partitionRows
          · right
            have value : min (table.partitionRows + 1 : Int) (ordinal + offset) = ordinal + offset := by omega
            refine ⟨ordinal + offset, ?_, by omega, by omega, ?_⟩
            · rw [baseStart, value]
              exact bigint_ok _ (by omega) (by omega)
            · intro row _ _
              rw [reachesStart, decide_eq_true_eq]
              rfl
          · apply behind
            · intro row _ below
              rw [reachesStart, decide_eq_false_iff_not]
              change ¬ ordinal + (offset : Int) ≤ row
              omega
            · have value : min (table.partitionRows + 1 : Int) (ordinal + offset) = table.partitionRows + 1 := by omega
              rw [baseStart, value]
      | groups =>
          obtain ⟨positive, _⟩ := lookup_own table ordinal low high
          cases found : table.lookup (table.peerId ordinal + offset) with
          | none =>
              apply behind
              · intro row above below
                have before := lookup_behind table _ row (by omega) found above below
                rw [reachesStart, decide_eq_false_iff_not]
                change ¬ table.peerId ordinal + (offset : Int) ≤ table.peerId row
                omega
              · rw [baseStart, found]
          | some other =>
              right
              obtain ⟨starts, _, ends, place⟩ := lookup_bounds table _ other found
              refine ⟨other.firstOrdinal, ?_, starts, by omega, ?_⟩
              · rw [baseStart, found]
              · intro row above below
                rw [(place row above below).1, reachesStart, decide_eq_true_eq]
                rfl
      | range => exact absurd (supported rfl) (fun wrong => wrong)

-- The end of a frame, unless its offset is no bigint.
theorem base_end (bound : FrameBound Nat) (supported : mode = .range → bound.offsetFree) :
    (∃ fault offset, baseEnd table mode ordinal own bound = .error fault ∧ mode = .groups ∧ bound = .preceding offset ∧
      bigintMax < offset) ∨
    ∃ finish, baseEnd table mode ordinal own bound = .ok finish ∧ 0 ≤ finish ∧ finish ≤ table.partitionRows ∧
      ¬ (mode = .groups ∧ ∃ offset, bound = .preceding offset ∧ bigintMax < offset) ∧
      ∀ row : Int, 1 ≤ row → row ≤ table.partitionRows →
        (row ≤ finish ↔ reachesEnd (framePosition table mode ordinal) (framePosition table mode row) bound = true) := by
  have counted := table.counted
  have ownBounds := lookup_bounds table _ own isOwn
  have some : (1 : Int) ≤ table.partitionRows := by omega
  cases bound with
  | unbounded =>
      right
      refine ⟨table.partitionRows, rfl, by omega, Int.le_refl _, ?_, ?_⟩
      · rintro ⟨_, offset, wrong, _⟩
        cases wrong
      · intro row _ below
        simp only [reachesEnd, iff_true]
        exact below
  | currentRow =>
      right
      refine ⟨_, rfl, ?_, ?_, ?_, ?_⟩
      · split <;> omega
      · split <;> omega
      · rintro ⟨_, offset, wrong, _⟩
        cases wrong
      · intro row above below
        rw [reachesEnd, decide_eq_true_eq, framePosition, framePosition]
        by_cases isRows : mode = .rows
        · rw [if_pos isRows, if_pos isRows, if_pos isRows]
        · rw [if_neg isRows, if_neg isRows, if_neg isRows]
          exact (ownBounds.2.2.2 row above below).2
  | preceding offset =>
      cases mode with
      | rows =>
          right
          refine ⟨max 0 (ordinal - offset), bigint_ok _ (by omega) (by omega), by omega, by omega, ?_, ?_⟩
          · rintro ⟨wrong, _⟩
            cases wrong
          · intro row above below
            rw [reachesEnd, decide_eq_true_eq]
            change row ≤ max 0 (ordinal - (offset : Int)) ↔ row ≤ ordinal - (offset : Int)
            omega
      | groups =>
          obtain ⟨positive, counting, _⟩ := lookup_own table ordinal low high
          by_cases large : bigintMax < offset
          · left
            refine ⟨.failed "bigint out of range", offset, ?_, rfl, rfl, large⟩
            rw [baseEnd, bigint_over _ (by omega)]
            rfl
          · right
            have isOffset := bigint_natural offset (by omega)
            have isId : bigint (table.peerId ordinal - offset) = .ok (table.peerId ordinal - offset) := bigint_ok _ (by omega) (by omega)
            have fits : ¬ (FrameMode.groups = .groups ∧ ∃ other, FrameBound.preceding offset = .preceding other ∧ bigintMax < other) := by
              rintro ⟨_, other, same, wrong⟩
              cases same
              exact large wrong
            cases found : table.lookup (table.peerId ordinal - offset) with
            | none =>
                refine ⟨0, ?_, Int.le_refl _, by omega, fits, ?_⟩
                · rw [baseEnd, isOffset, ok_bind, isId, ok_bind, found]
                · intro row above below
                  have here := (lookup_own table row above below).1
                  rw [reachesEnd, decide_eq_true_eq]
                  change row ≤ 0 ↔ table.peerId row ≤ table.peerId ordinal - (offset : Int)
                  by_cases before : table.peerId ordinal - offset < 1
                  · omega
                  · have far := lookup_behind table _ ordinal (by omega) found low high
                    omega
            | some other =>
                obtain ⟨starts, filled, ends, place⟩ := lookup_bounds table _ other found
                refine ⟨other.lastOrdinal, ?_, by omega, ends, fits, ?_⟩
                · rw [baseEnd, isOffset, ok_bind, isId, ok_bind, found]
                · intro row above below
                  rw [(place row above below).2, reachesEnd, decide_eq_true_eq]
                  rfl
      | range => exact absurd (supported rfl) (fun wrong => wrong)
  | following offset =>
      right
      have fits : ¬ (mode = .groups ∧ ∃ other, FrameBound.following offset = .preceding other ∧ bigintMax < other) := by
        rintro ⟨_, other, wrong, _⟩
        cases wrong
      cases mode with
      | rows =>
          refine ⟨min table.partitionRows (ordinal + offset), bigint_ok _ (by omega) (by omega), by omega, by omega, fits, ?_⟩
          intro row above below
          rw [reachesEnd, decide_eq_true_eq]
          change row ≤ min (table.partitionRows : Int) (ordinal + (offset : Int)) ↔ row ≤ ordinal + (offset : Int)
          omega
      | groups =>
          obtain ⟨positive, _⟩ := lookup_own table ordinal low high
          cases found : table.lookup (table.peerId ordinal + offset) with
          | none =>
              refine ⟨table.partitionRows, ?_, by omega, Int.le_refl _, fits, ?_⟩
              · rw [baseEnd, found]
              · intro row above below
                have before := lookup_behind table _ row (by omega) found above below
                rw [reachesEnd, decide_eq_true_eq]
                change row ≤ (table.partitionRows : Int) ↔ table.peerId row ≤ table.peerId ordinal + (offset : Int)
                omega
          | some other =>
              obtain ⟨starts, filled, ends, place⟩ := lookup_bounds table _ other found
              refine ⟨other.lastOrdinal, ?_, by omega, ends, fits, ?_⟩
              · rw [baseEnd, found]
              · intro row above below
                rw [(place row above below).2, reachesEnd, decide_eq_true_eq]
                rfl
      | range => exact absurd (supported rfl) (fun wrong => wrong)

end Bounds

end Shiba.Window
