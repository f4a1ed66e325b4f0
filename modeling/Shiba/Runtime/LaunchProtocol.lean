import Shiba.Runtime.Launch

set_option autoImplicit false

namespace Shiba.Launch

section Workers

variable (db : Database)

section

variable (pid : Nat) (change : Worker → Worker) (other : Worker)

theorem set_mem :
    other ∈ (db.setWorker pid change).workers ↔ ∃ worker ∈ db.workers, (if worker.pid = pid then change worker else worker) = other :=
  List.mem_map

theorem dismiss_mem : other ∈ (db.dismiss pid).workers ↔ other ∈ db.workers ∧ other.pid ≠ pid := by
  rw [Database.dismiss, List.mem_filter, decide_eq_true_eq]

theorem set_pids (keeps : ∀ worker, (change worker).pid = worker.pid) :
    (db.setWorker pid change).workers.map Worker.pid = db.workers.map Worker.pid := by
  rw [Database.setWorker, List.map_map]
  apply List.map_congr_left
  intro worker _
  by_cases here : worker.pid = pid
  · simp only [Function.comp_apply, if_pos here, keeps]
  · simp only [Function.comp_apply, if_neg here]

theorem on_worker_cases (ready : WorkerPhase → Bool) (change : Worker → Database) :
    onWorker db pid ready change = db ∨
      ∃ worker ∈ db.workers, ready worker.phase = true ∧ onWorker db pid ready change = change worker := by
  rw [onWorker]
  cases found : db.workers.find? fun worker => decide (worker.pid = pid) with
  | none => exact .inl rfl
  | some worker =>
      by_cases fits : ready worker.phase = true
      · exact .inr ⟨worker, List.mem_of_find?_eq_some found, fits, if_pos fits⟩
      · exact .inl (if_neg fits)

end

theorem on_transaction_cases (xid : Nat) (change : Database → Database) :
    onTransaction db xid change = db ∨ (db.xacts[xid]? = some .inProgress ∧ onTransaction db xid change = change db) := by
  rw [onTransaction]
  by_cases running : db.inProgress xid = true
  · exact .inr ⟨of_decide_eq_true running, if_pos running⟩
  · exact .inl (if_neg running)

end Workers

def WorkerPhase.holds (phase : WorkerPhase) : Bool := decide (phase = .identified) || decide (phase = .owning)

def WorkerPhase.launched (phase : WorkerPhase) : Bool := decide (phase = .claiming) || phase.holds

-- What is so of every worker, wherever it is.
structure Placed (db : Database) (worker : Worker) : Prop where
  below : worker.pid < db.nextPid
  held : worker.phase.holds = true → db.identity = some (.session worker.pid)
  launched : worker.phase.launched = true → db.xacts[worker.launchXid]? = some .committed
  owner : worker.phase = .owning → db.runtime = ⟨true, some worker.pid, worker.launchGeneration, none⟩

structure Consistent (db : Database) : Prop where
  pids : (db.workers.map Worker.pid).Nodup
  placed : ∀ worker ∈ db.workers, Placed db worker
  writer : ∀ xid version, db.writing = some (xid, version) →
    db.xacts[xid]? = some .inProgress ∧ (db.identity = some (.transaction xid) ∨ db.runtime.active = false)
  holder : ∀ xid, db.identity = some (.transaction xid) → db.xacts[xid]? = some .inProgress
  registered : ∀ xid version, db.writing = some (xid, version) → version.pendingLaunchXid = some xid →
    ∃ worker ∈ db.workers, worker.launchXid = xid ∧ worker.launchGeneration = version.launchGeneration

theorem consistent_start : Consistent {} := by
  refine ⟨List.nodup_nil, ?_, ?_, ?_, ?_⟩
  · intro worker member
    cases member
  · intro xid version wrong
    cases wrong
  · intro xid wrong
    cases wrong
  · intro xid version wrong
    cases wrong

theorem same_worker {db : Database} (consistent : Consistent db) {first second : Worker} (one : first ∈ db.workers)
    (other : second ∈ db.workers) (same : first.pid = second.pid) : first = second :=
  List.inj_on_of_nodup_map consistent.pids one other same

-- A worker stays placed while the row does, its lock does and its transaction does.
theorem placed_kept {db after : Database} {worker : Worker} (placed : Placed db worker) (below : db.nextPid ≤ after.nextPid)
    (held : ∀ pid, db.identity = some (.session pid) → after.identity = some (.session pid))
    (launched : ∀ xid : Nat, db.xacts[xid]? = some .committed → after.xacts[xid]? = some .committed) (row : after.runtime = db.runtime) :
    Placed after worker := by
  refine ⟨lt_of_lt_of_le placed.below below, fun holds => held _ (placed.held holds), fun isLaunched => launched _ (placed.launched isLaunched), ?_⟩
  intro owning
  rw [row]
  exact placed.owner owning

section Transactions

variable (db : Database) (consistent : Consistent db)

include consistent

variable (xid : Nat) (waited : Bool) (status : XactStatus)

-- No worker owns the identity while a transaction has its lock.
theorem no_owner (locked : db.identity = some (.transaction xid)) (worker : Worker) (member : worker ∈ db.workers) :
    worker.phase ≠ .owning := by
  intro owning
  have holds := (consistent.placed worker member).held (by rw [owning]; rfl)
  rw [locked] at holds
  cases holds

theorem start_consistent : Consistent { db with xacts := db.xacts ++ [.inProgress] } := by
  have kept : ∀ (xid : Nat) (status : XactStatus), db.xacts[xid]? = some status → (db.xacts ++ [.inProgress])[xid]? = some status := by
    intro xid status found
    rw [List.getElem?_append_left (List.getElem?_eq_some_iff.mp found).1]
    exact found
  refine ⟨consistent.pids, ?_, ?_, ?_, consistent.registered⟩
  · intro worker member
    exact placed_kept (consistent.placed worker member) (Nat.le_refl _) (fun _ => id) (fun xid => kept xid _) rfl
  · intro xid version writes
    have before := consistent.writer xid version writes
    exact ⟨kept xid _ before.1, before.2⟩
  · intro xid locked
    exact kept xid _ (consistent.holder xid locked)

-- The identity lock goes to a transaction that may take it.
theorem locked_consistent (running : db.xacts[xid]? = some .inProgress)
    (free : db.identity.all (fun holder => decide (holder = .transaction xid)) = true) :
    Consistent { db with identity := some (.transaction xid) } := by
  refine ⟨consistent.pids, ?_, ?_, ?_, consistent.registered⟩
  · intro worker member
    refine placed_kept (consistent.placed worker member) (Nat.le_refl _) ?_ (fun _ same => same) rfl
    intro pid held
    rw [held, Option.all_some, decide_eq_true_eq] at free
    cases free
  · intro other version writes
    obtain ⟨progress, place⟩ := consistent.writer other version writes
    refine ⟨progress, ?_⟩
    rcases place with locked | inactive
    · rw [locked, Option.all_some, decide_eq_true_eq] at free
      exact .inl (congrArg some free.symm ▸ rfl)
    · exact .inr inactive
  · intro other locked
    cases locked
    exact running

omit consistent in
theorem ensure_cases :
    (db.identity.all (fun holder => decide (holder = .transaction xid)) = false ∧ ensureRuntime db xid waited = db) ∨
      (db.identity.all (fun holder => decide (holder = .transaction xid)) = true ∧
        ((ensureRuntime db xid waited = { db with identity := some (.transaction xid) } ∧
            ((db.visible xid).active && (db.visible xid).pendingLaunchXid.all (fun pending => decide (pending ≠ xid) && waited) &&
              db.writable xid) = false) ∨
          ((db.visible xid).active = true ∧ db.writable xid = true ∧ ensureRuntime db xid waited =
            { db with
              identity := some (.transaction xid)
              writing := some (xid, ⟨true, none, (db.visible xid).launchGeneration + 1, some xid⟩)
              workers := db.workers ++ [⟨db.nextPid, xid, (db.visible xid).launchGeneration + 1, .waiting⟩]
              nextPid := db.nextPid + 1 }))) := by
  rw [ensureRuntime, prepareRuntimeLaunch]
  by_cases free : db.identity.all (fun holder => decide (holder = .transaction xid)) = true
  · rw [if_pos free]
    refine .inr ⟨free, ?_⟩
    by_cases due : ((db.visible xid).active &&
        (db.visible xid).pendingLaunchXid.all (fun pending => decide (pending ≠ xid) && waited) && db.writable xid) = true
    · rw [if_pos due]
      rw [Bool.and_eq_true, Bool.and_eq_true] at due
      refine .inr ⟨due.1.1, due.2, ?_⟩
      simp only [startRuntime, due.1.1]
    · rw [if_neg due]
      exact .inl ⟨rfl, Bool.eq_false_iff.mpr due⟩
  · rw [if_neg free]
    exact .inl ⟨Bool.eq_false_iff.mpr free, rfl⟩

-- The waiting worker of a launch joins the others.
theorem launched_consistent (generation : Nat) (running : db.xacts[xid]? = some .inProgress)
    (free : db.identity.all (fun holder => decide (holder = .transaction xid)) = true) :
    Consistent { db with
      identity := some (.transaction xid)
      writing := some (xid, ⟨true, none, generation, some xid⟩)
      workers := db.workers ++ [⟨db.nextPid, xid, generation, .waiting⟩]
      nextPid := db.nextPid + 1 } := by
  have locked := locked_consistent db consistent xid running free
  refine ⟨?_, ?_, ?_, locked.holder, ?_⟩
  · rw [List.map_append, List.nodup_append]
    refine ⟨consistent.pids, List.nodup_singleton _, ?_⟩
    intro pid known fresh isFresh same
    obtain ⟨worker, member, rfl⟩ := List.mem_map.mp known
    rw [List.map_singleton, List.mem_singleton] at isFresh
    have below := (consistent.placed worker member).below
    rw [same, isFresh] at below
    exact absurd below (lt_irrefl _)
  · intro worker member
    rcases List.mem_append.mp member with old | fresh
    · exact placed_kept (locked.placed worker old) (Nat.le_succ _) (fun _ same => same) (fun _ same => same) rfl
    · obtain rfl := List.mem_singleton.mp fresh
      refine ⟨Nat.lt_succ_self _, fun wrong => absurd wrong Bool.false_ne_true, fun wrong => absurd wrong Bool.false_ne_true, ?_⟩
      intro wrong
      cases wrong
  · intro other version writes
    cases writes
    exact ⟨running, .inl rfl⟩
  · intro other version writes pending
    cases writes
    exact ⟨_, List.mem_append_right _ (List.mem_singleton_self _), rfl, rfl⟩

theorem ensure_consistent (running : db.xacts[xid]? = some .inProgress) :
    Consistent (ensureRuntime db xid waited) := by
  rcases ensure_cases db xid waited with ⟨_, same⟩ | ⟨free, ⟨same, _⟩ | ⟨_, _, same⟩⟩
  · rw [same]
    exact consistent
  · rw [same]
    exact locked_consistent db consistent xid running free
  · rw [same]
    exact launched_consistent db consistent xid _ running free

-- An activation writes its row where no other transaction does.
theorem activating_consistent (version : RuntimeState) (running : db.xacts[xid]? = some .inProgress)
    (place : db.identity = some (.transaction xid) ∨ db.runtime.active = false) (quiet : version.pendingLaunchXid = none) :
    Consistent { db with lifecycle := some xid, writing := some (xid, version) } := by
  refine ⟨consistent.pids, ?_, ?_, consistent.holder, ?_⟩
  · intro worker member
    exact placed_kept (consistent.placed worker member) (Nat.le_refl _) (fun _ same => same) (fun _ same => same) rfl
  · intro other written writes
    cases writes
    exact ⟨running, place⟩
  · intro other written writes pending
    cases writes
    rw [quiet] at pending
    cases pending

theorem relocked_consistent (lifecycle : Option Nat) : Consistent { db with lifecycle } := by
  refine ⟨consistent.pids, ?_, consistent.writer, consistent.holder, consistent.registered⟩
  intro worker member
  exact placed_kept (consistent.placed worker member) (Nat.le_refl _) (fun _ same => same) (fun _ same => same) rfl

-- An inactive row is the committed one, or a version under the identity lock.
theorem inactive_place (ours : db.writable xid = true) (inactive : (db.visible xid).active = false) :
    db.identity = some (.transaction xid) ∨ db.runtime.active = false := by
  rw [Database.visible] at inactive
  rw [Database.writable] at ours
  cases writes : db.writing with
  | none =>
      rw [writes] at inactive
      exact .inr inactive
  | some written =>
      obtain ⟨writer, version⟩ := written
      rw [writes, Option.all_some, decide_eq_true_eq] at ours
      obtain rfl : writer = xid := ours
      exact (consistent.writer writer version writes).2

theorem activate_consistent (running : db.xacts[xid]? = some .inProgress) :
    Consistent (activate db xid waited) := by
  rw [activate]
  by_cases may : (db.lifecycle.all (fun holder => decide (holder = xid)) && db.writable xid) = true
  · rw [if_pos may]
    rw [Bool.and_eq_true] at may
    by_cases isActive : (db.visible xid).active = true
    · rw [if_pos isActive]
      exact ensure_consistent _ (relocked_consistent db consistent _) xid waited running
    · rw [if_neg isActive]
      have place := inactive_place db consistent xid may.2 (Bool.eq_false_iff.mpr isActive)
      exact ensure_consistent _ (activating_consistent db consistent xid _ running place rfl) xid waited running
  · rw [if_neg may]
    exact consistent

theorem deactivate_consistent (running : db.xacts[xid]? = some .inProgress) : Consistent (deactivate db xid) := by
  rw [deactivate]
  by_cases may : (db.lifecycle.all (fun holder => decide (holder = xid)) &&
      db.identity.all (fun holder => decide (holder = .transaction xid)) && db.writable xid) = true
  · rw [if_pos may]
    rw [Bool.and_eq_true, Bool.and_eq_true] at may
    exact activating_consistent _ (locked_consistent db consistent xid running may.1.2) xid _ running (.inl rfl) rfl
  · rw [if_neg may]
    exact consistent

omit consistent in
theorem released_xacts {xid other : Nat} {found : XactStatus} (apart : other ≠ xid) (before : db.xacts[other]? = some found) :
    (released db xid status).xacts[other]? = some found := by
  rw [released, List.getElem?_set_ne (Ne.symm apart)]
  exact before

omit consistent in
theorem released_writing (other : Nat) (version : RuntimeState)
    (writes : (released db xid status).writing = some (other, version)) :
    db.writing = some (other, version) ∧ other ≠ xid := by
  obtain ⟨before, apart⟩ := Option.filter_eq_some_iff.mp writes
  exact ⟨before, of_decide_eq_true apart⟩

theorem released_consistent (running : db.xacts[xid]? = some .inProgress) :
    Consistent (released db xid status) := by
  have elsewhere : ∀ (other : Nat) (found : XactStatus), found ≠ .inProgress → db.xacts[other]? = some found → other ≠ xid := by
    intro other found ended before same
    rw [same, running] at before
    exact ended (Option.some.inj before).symm
  refine ⟨consistent.pids, ?_, ?_, ?_, ?_⟩
  · intro worker member
    refine placed_kept (consistent.placed worker member) (Nat.le_refl _) ?_ ?_ rfl
    · intro pid held
      apply Option.filter_eq_some_iff.mpr
      refine ⟨held, decide_eq_true ?_⟩
      intro wrong
      cases wrong
    · intro other before
      exact released_xacts db status (elsewhere other _ (by decide) before) before
  · intro other version writes
    obtain ⟨before, apart⟩ := released_writing db xid status other version writes
    obtain ⟨progress, place⟩ := consistent.writer other version before
    refine ⟨released_xacts db status apart progress, ?_⟩
    rcases place with locked | inactive
    · refine .inl (Option.filter_eq_some_iff.mpr ⟨locked, decide_eq_true ?_⟩)
      intro same
      exact apart (Holder.transaction.inj same)
    · exact .inr inactive
  · intro other locked
    obtain ⟨before, apart⟩ := Option.filter_eq_some_iff.mp locked
    refine released_xacts db status ?_ (consistent.holder other before)
    intro same
    exact of_decide_eq_true apart (congrArg Holder.transaction same)
  · intro other version writes pending
    exact consistent.registered other version (released_writing db xid status other version writes).1 pending

omit consistent in
-- What a commit leaves in the row: its own version, or the row as it was.
theorem commit_row :
    (∃ version, db.writing = some (xid, version) ∧ (commit db xid).runtime = version) ∨
      ((∀ version, db.writing ≠ some (xid, version)) ∧ (commit db xid).runtime = db.runtime) := by
  rw [commit]
  simp only [Database.visible]
  cases writes : db.writing with
  | none => exact .inr ⟨fun _ wrong => (by cases wrong), rfl⟩
  | some written =>
      obtain ⟨writer, version⟩ := written
      by_cases own : writer = xid
      · rw [own]
        exact .inl ⟨version, rfl, if_pos rfl⟩
      · refine .inr ⟨?_, if_neg own⟩
        intro other same
        cases same
        exact own rfl

theorem commit_consistent (running : db.xacts[xid]? = some .inProgress) : Consistent (commit db xid) := by
  have base := released_consistent db consistent xid .committed running
  rcases commit_row db xid with ⟨version, writes, row⟩ | ⟨other, row⟩
  · refine ⟨base.pids, ?_, ?_, base.holder, base.registered⟩
    · intro worker member
      have before := consistent.placed worker member
      have placed := base.placed worker member
      refine ⟨placed.below, placed.held, placed.launched, ?_⟩
      intro owning
      exfalso
      rcases (consistent.writer xid version writes).2 with locked | inactive
      · exact no_owner db consistent xid locked worker member owning
      · rw [before.owner owning] at inactive
        cases inactive
    · intro another later wrote
      obtain ⟨before, apart⟩ := released_writing db xid .committed another later wrote
      rw [writes] at before
      cases before
      exact absurd rfl apart
  · have same : commit db xid = released db xid .committed := by
      have unchanged : (released db xid .committed).runtime = db.runtime := rfl
      rw [commit] at row ⊢
      simp only at row
      rw [row, ← unchanged]
    rw [same]
    exact base

end Transactions

section Processes

variable {db : Database} (consistent : Consistent db) {worker : Worker} (member : worker ∈ db.workers)

include consistent member

-- One worker goes on in another phase; the others stay as they are.
theorem moved_consistent (identity : Option Holder) (runtime : RuntimeState) (change : Worker → Worker) (nextPid : Nat)
    (same : ∀ other, (change other).launchXid = other.launchXid ∧ (change other).launchGeneration = other.launchGeneration)
    (pids : ((db.setWorker worker.pid change).workers.map Worker.pid).Nodup)
    (placed : ∀ other ∈ db.workers, other ≠ worker →
      Placed { db.setWorker worker.pid change with identity, runtime, nextPid } other)
    (moved : Placed { db.setWorker worker.pid change with identity, runtime, nextPid } (change worker))
    (writer : ∀ xid version, db.writing = some (xid, version) → identity = some (.transaction xid) ∨ runtime.active = false)
    (holder : ∀ xid, identity = some (.transaction xid) → db.identity = some (.transaction xid)) :
    Consistent { db.setWorker worker.pid change with identity, runtime, nextPid } := by
  refine ⟨pids, ?_, ?_, ?_, ?_⟩
  · intro other listed
    obtain ⟨before, known, changed⟩ := (set_mem db worker.pid change other).mp listed
    by_cases here : before.pid = worker.pid
    · rw [if_pos here] at changed
      rw [← changed, same_worker consistent known member here]
      exact moved
    · rw [if_neg here] at changed
      rw [← changed]
      exact placed before known fun equal => here (congrArg Worker.pid equal)
  · intro xid version writes
    exact ⟨(consistent.writer xid version writes).1, writer xid version writes⟩
  · intro xid locked
    exact consistent.holder xid (holder xid locked)
  · intro xid version writes pending
    obtain ⟨waiting, known, launches, generation⟩ := consistent.registered xid version writes pending
    refine ⟨_, (set_mem db worker.pid change _).mpr ⟨waiting, known, rfl⟩, ?_⟩
    by_cases here : waiting.pid = worker.pid
    · rw [if_pos here, (same waiting).1, (same waiting).2]
      exact ⟨launches, generation⟩
    · rw [if_neg here]
      exact ⟨launches, generation⟩

-- One worker leaves; no launch that is under way is its own.
theorem dismissed_consistent {identity : Option Holder} {runtime : RuntimeState}
    (ended : db.xacts[worker.launchXid]? ≠ some .inProgress)
    (placed : ∀ other ∈ db.workers, other ≠ worker → Placed { db.dismiss worker.pid with identity, runtime } other)
    (writer : ∀ xid version, db.writing = some (xid, version) → identity = some (.transaction xid) ∨ runtime.active = false)
    (holder : ∀ xid, identity = some (.transaction xid) → db.identity = some (.transaction xid)) :
    Consistent { db.dismiss worker.pid with identity, runtime } := by
  refine ⟨?_, ?_, ?_, ?_, ?_⟩
  · exact consistent.pids.sublist (List.filter_sublist.map _)
  · intro other listed
    obtain ⟨known, apart⟩ := (dismiss_mem db worker.pid other).mp listed
    exact placed other known fun equal => apart (congrArg Worker.pid equal)
  · intro xid version writes
    exact ⟨(consistent.writer xid version writes).1, writer xid version writes⟩
  · intro xid locked
    exact consistent.holder xid (holder xid locked)
  · intro xid version writes pending
    obtain ⟨waiting, known, launches, generation⟩ := consistent.registered xid version writes pending
    refine ⟨waiting, (dismiss_mem db worker.pid waiting).mpr ⟨known, ?_⟩, launches, generation⟩
    intro here
    rw [same_worker consistent known member here] at launches
    rw [launches] at ended
    exact ended (consistent.writer xid version writes).1

theorem await_consistent : Consistent (waitForLaunchTransaction db worker) := by
  have writer : ∀ xid version, db.writing = some (xid, version) →
      db.identity = some (.transaction xid) ∨ db.runtime.active = false := fun xid version writes => (consistent.writer xid version writes).2
  rw [waitForLaunchTransaction]
  cases status : db.xacts[worker.launchXid]? with
  | none => exact consistent
  | some status_ =>
      cases status_ with
      | inProgress => exact consistent
      | committed =>
          have before := consistent.placed worker member
          apply moved_consistent consistent member db.identity db.runtime (fun worker => { worker with phase := .claiming })
            db.nextPid (fun _ => ⟨rfl, rfl⟩) _ _ _ writer fun _ locked => locked
          · rw [set_pids]
            · exact consistent.pids
            · intro other
              rfl
          · intro other known _
            exact placed_kept (consistent.placed other known) (Nat.le_refl _) (fun _ held => held) (fun _ ran => ran) rfl
          · refine ⟨before.below, fun wrong => absurd wrong Bool.false_ne_true, fun _ => status, ?_⟩
            intro wrong
            cases wrong
      | aborted =>
          apply dismissed_consistent consistent member _ _ writer fun _ locked => locked
          · rw [status]
            intro wrong
            cases wrong
          · intro other known _
            exact placed_kept (consistent.placed other known) (Nat.le_refl _) (fun _ held => held) (fun _ ran => ran) rfl

-- Only one process has the identity lock.
theorem same_session (other : Worker) (known : other ∈ db.workers) (first : worker.phase.holds = true) (second : other.phase.holds = true) :
    other = worker := by
  have one := (consistent.placed worker member).held first
  have two := (consistent.placed other known).held second
  rw [one] at two
  exact same_worker consistent known member (Holder.session.inj (Option.some.inj two)).symm

theorem try_consistent (claiming : worker.phase = .claiming) : Consistent (tryRuntimeIdentity db worker) := by
  have before := consistent.placed worker member
  have launched := before.launched (by rw [claiming]; rfl)
  rw [tryRuntimeIdentity]
  cases locked : db.identity with
  | none =>
      apply moved_consistent consistent member (some (.session worker.pid)) db.runtime
        (fun worker => { worker with phase := .identified }) db.nextPid (fun _ => ⟨rfl, rfl⟩)
      · rw [set_pids]
        · exact consistent.pids
        · intro other
          rfl
      · intro other known _
        refine placed_kept (consistent.placed other known) (Nat.le_refl _) ?_ (fun _ ran => ran) rfl
        intro pid held
        rw [locked] at held
        cases held
      · refine ⟨before.below, fun _ => rfl, fun _ => launched, ?_⟩
        intro wrong
        cases wrong
      · intro xid version writes
        rcases (consistent.writer xid version writes).2 with wrong | inactive
        · rw [locked] at wrong
          cases wrong
        · exact .inr inactive
      · intro xid wrong
        cases wrong
  | some holder =>
      simp only
      by_cases still : stillLaunchable db.runtime worker = true
      · rw [if_pos still]
        exact consistent
      · rw [if_neg still]
        apply dismissed_consistent consistent member
        · rw [launched]
          intro wrong
          cases wrong
        · intro other known _
          exact placed_kept (consistent.placed other known) (Nat.le_refl _) (fun _ held => held) (fun _ ran => ran) rfl
        · exact fun xid version writes => (consistent.writer xid version writes).2
        · exact fun _ same => same

omit consistent member in
theorem claimable_row (runtime : RuntimeState) (claims : claimable runtime worker = true) :
    runtime.active = true ∧ runtime.launchGeneration = worker.launchGeneration ∧
      runtime.pendingLaunchXid.all (fun pending => decide (pending = worker.launchXid)) = true := by
  rw [claimable, Bool.and_eq_true, Bool.and_eq_true, decide_eq_true_eq] at claims
  exact ⟨claims.1.1, claims.1.2, claims.2⟩

theorem record_consistent (identified : worker.phase = .identified) : Consistent (recordRuntimeOwner db worker) := by
  have before := consistent.placed worker member
  have launched := before.launched (by rw [identified]; rfl)
  have mine := before.held (by rw [identified]; rfl)
  have alone : ∀ other ∈ db.workers, other ≠ worker → other.phase.holds = false := by
    intro other known apart
    apply Bool.eq_false_iff.mpr
    intro holds
    exact apart (same_session consistent member other known (by rw [identified]; rfl) holds)
  have elsewhere : ∀ other ∈ db.workers, other ≠ worker → other.phase ≠ .owning := by
    intro other known apart owning
    have quiet := alone other known apart
    rw [owning] at quiet
    cases quiet
  rw [recordRuntimeOwner]
  by_cases claims : claimable db.runtime worker = true
  · rw [if_pos claims]
    by_cases quiet : db.writing.isNone = true
    · rw [if_pos quiet]
      have nothing := Option.isNone_iff_eq_none.mp quiet
      apply moved_consistent consistent member db.identity
        { db.runtime with ownerPid := some worker.pid, pendingLaunchXid := none }
        (fun worker => { worker with phase := .owning }) db.nextPid (fun _ => ⟨rfl, rfl⟩)
      · rw [set_pids]
        · exact consistent.pids
        · intro other
          rfl
      · intro other known apart
        have old := consistent.placed other known
        exact ⟨old.below, old.held, old.launched, fun owning => absurd owning (elsewhere other known apart)⟩
      · obtain ⟨isActive, generation, _⟩ := claimable_row db.runtime claims
        refine ⟨before.below, fun _ => mine, fun _ => launched, fun _ => ?_⟩
        change (⟨db.runtime.active, some worker.pid, db.runtime.launchGeneration, none⟩ : RuntimeState) =
          ⟨true, some worker.pid, worker.launchGeneration, none⟩
        rw [isActive, generation]
      · intro xid version writes
        rw [nothing] at writes
        cases writes
      · exact fun _ same => same
    · rw [if_neg quiet]
      exact consistent
  · rw [if_neg claims]
    apply dismissed_consistent consistent member
    · rw [launched]
      intro wrong
      cases wrong
    · intro other known apart
      have old := consistent.placed other known
      refine ⟨old.below, fun holds => ?_, old.launched, old.owner⟩
      rw [alone other known apart] at holds
      cases holds
    · intro xid version writes
      rcases (consistent.writer xid version writes).2 with wrong | inactive
      · rw [mine] at wrong
        cases wrong
      · exact .inr inactive
    · intro xid wrong
      cases wrong

-- The row stays active as long as a process owns the identity.
theorem serve_idle (owning : worker.phase = .owning) : serve db worker = db := by
  have row := (consistent.placed worker member).owner owning
  rw [serve, row]
  rfl

theorem crash_consistent : Consistent (crash db worker) := by
  have before := consistent.placed worker member
  rw [crash]
  apply moved_consistent consistent member _ db.runtime (fun worker => { worker with phase := .restarting }) db.nextPid
    (fun _ => ⟨rfl, rfl⟩)
  · rw [set_pids]
    · exact consistent.pids
    · intro other
      rfl
  · intro other known apart
    have old := consistent.placed other known
    refine ⟨old.below, fun holds => ?_, old.launched, old.owner⟩
    refine Option.filter_eq_some_iff.mpr ⟨old.held holds, decide_eq_true ?_⟩
    intro same
    exact apart (same_worker consistent known member (Holder.session.inj same))
  · refine ⟨before.below, fun wrong => absurd wrong Bool.false_ne_true, fun wrong => absurd wrong Bool.false_ne_true, ?_⟩
    intro wrong
    cases wrong
  · intro xid version writes
    rcases (consistent.writer xid version writes).2 with locked | inactive
    · refine .inl (Option.filter_eq_some_iff.mpr ⟨locked, decide_eq_true ?_⟩)
      intro wrong
      cases wrong
    · exact .inr inactive
  · intro xid locked
    exact (Option.filter_eq_some_iff.mp locked).1

theorem restart_consistent : Consistent (restartWorker db worker) := by
  rw [restartWorker]
  apply moved_consistent consistent member db.identity db.runtime
    (fun worker => { worker with pid := db.nextPid, phase := .waiting }) (db.nextPid + 1) (fun _ => ⟨rfl, rfl⟩)
  · have renamed : ((db.setWorker worker.pid fun worker => { worker with pid := db.nextPid, phase := .waiting }).workers.map Worker.pid) =
        (db.workers.map Worker.pid).map fun pid => if pid = worker.pid then db.nextPid else pid := by
      rw [Database.setWorker, List.map_map, List.map_map]
      apply List.map_congr_left
      intro other _
      by_cases here : other.pid = worker.pid
      · simp only [Function.comp_apply, if_pos here]
      · simp only [Function.comp_apply, if_neg here]
    rw [renamed]
    apply consistent.pids.map_on
    intro first one second other same
    obtain ⟨left, left_member, rfl⟩ := List.mem_map.mp one
    obtain ⟨right, right_member, rfl⟩ := List.mem_map.mp other
    have left_below := (consistent.placed left left_member).below
    have right_below := (consistent.placed right right_member).below
    by_cases first_here : left.pid = worker.pid
    · by_cases second_here : right.pid = worker.pid
      · rw [first_here, second_here]
      · rw [if_pos first_here, if_neg second_here] at same
        omega
    · by_cases second_here : right.pid = worker.pid
      · rw [if_neg first_here, if_pos second_here] at same
        omega
      · rw [if_neg first_here, if_neg second_here] at same
        exact same
  · intro other known _
    exact placed_kept (consistent.placed other known) (Nat.le_succ _) (fun _ held => held) (fun _ ran => ran) rfl
  · refine ⟨Nat.lt_succ_self _, fun wrong => absurd wrong Bool.false_ne_true, fun wrong => absurd wrong Bool.false_ne_true, ?_⟩
    intro wrong
    cases wrong
  · exact fun xid version writes => (consistent.writer xid version writes).2
  · exact fun _ same => same

end Processes

theorem step_consistent (db : Database) (consistent : Consistent db) (action : Action) : Consistent (step db action) := by
  have transaction : ∀ (xid : Nat) (change : Database → Database),
      (db.xacts[xid]? = some .inProgress → Consistent (change db)) → Consistent (onTransaction db xid change) := by
    intro xid change keeps
    rcases on_transaction_cases db xid change with same | ⟨running, same⟩
    · rw [same]
      exact consistent
    · rw [same]
      exact keeps running
  have process : ∀ (pid : Nat) (ready : WorkerPhase → Bool) (change : Worker → Database),
      (∀ worker ∈ db.workers, ready worker.phase = true → Consistent (change worker)) → Consistent (onWorker db pid ready change) := by
    intro pid ready change keeps
    rcases on_worker_cases db pid ready change with same | ⟨worker, member, fits, same⟩
    · rw [same]
      exact consistent
    · rw [same]
      exact keeps worker member fits
  cases action with
  | start => exact start_consistent db consistent
  | ensure xid waited =>
      rw [step]
      exact transaction xid _ (ensure_consistent db consistent xid waited)
  | activate xid waited =>
      rw [step]
      exact transaction xid _ (activate_consistent db consistent xid waited)
  | deactivate xid =>
      rw [step]
      exact transaction xid _ (deactivate_consistent db consistent xid)
  | commit xid =>
      rw [step]
      exact transaction xid _ (commit_consistent db consistent xid)
  | abort xid =>
      rw [step]
      exact transaction xid _ (released_consistent db consistent xid .aborted)
  | awaitLaunch pid =>
      rw [step]
      exact process pid _ _ fun worker member _ => await_consistent consistent member
  | tryIdentity pid =>
      rw [step]
      exact process pid _ _ fun worker member claiming => try_consistent consistent member (of_decide_eq_true claiming)
  | recordOwner pid =>
      rw [step]
      exact process pid _ _ fun worker member identified =>
        record_consistent consistent member (of_decide_eq_true identified)
  | serve pid =>
      rw [step]
      apply process
      intro worker member owning
      rw [serve_idle consistent member (of_decide_eq_true owning)]
      exact consistent
  | crash pid =>
      rw [step]
      exact process pid _ _ fun worker member _ => crash_consistent consistent member
  | restart pid =>
      rw [step]
      exact process pid _ _ fun worker member _ => restart_consistent consistent member

theorem run_consistent (db : Database) (consistent : Consistent db) (actions : List Action) : Consistent (run db actions) := by
  induction actions generalizing db with
  | nil => exact consistent
  | cons action rest ih => exact ih _ (step_consistent db consistent action)

-- A worker whose claim the row is waiting for, or whose claim it has recorded.
def Expected (db : Database) (worker : Worker) : Prop :=
  db.xacts[worker.launchXid]? = some .committed ∧ worker.launchGeneration = db.runtime.launchGeneration ∧
    db.runtime.pendingLaunchXid.all (fun pending => decide (pending = worker.launchXid)) = true

structure Covered (db : Database) : Prop where
  expected : db.runtime.active = true → ∃ worker ∈ db.workers, Expected db worker
  launches : ∀ xid version, db.writing = some (xid, version) → version.active = true → version.pendingLaunchXid = some xid

-- The steps that lose no launch. An activation of the inactive row finds the identity
-- lock free, and a claim that finds it taken does not read the owner that a crash left.
def Meets (db : Database) : Action → Prop
  | .activate xid _ => (db.visible xid).active = false → db.identity.all (fun holder => decide (holder = .transaction xid)) = true
  | .tryIdentity _ => db.identity = none ∨ db.runtime.ownerPid = none ∨ ∃ worker ∈ db.workers, worker.phase = .owning
  | _ => True

def AllMeet (db : Database) : List Action → Prop
  | [] => True
  | action :: rest => Meets db action ∧ AllMeet (step db action) rest

section Coverage

variable (db : Database) (consistent : Consistent db) (covered : Covered db)

include consistent covered

section

variable (xid : Nat) (waited : Bool) (status : XactStatus) (worker : Worker)

omit consistent in
theorem ensure_covered :
    Covered (ensureRuntime db xid waited) := by
  rcases ensure_cases db xid waited with ⟨_, same⟩ | ⟨free, ⟨same, _⟩ | ⟨_, _, same⟩⟩
  · rw [same]
    exact covered
  · rw [same]
    exact ⟨covered.expected, covered.launches⟩
  · rw [same]
    refine ⟨?_, ?_⟩
    · intro isActive
      obtain ⟨worker, member, expected⟩ := covered.expected isActive
      exact ⟨worker, List.mem_append_left _ member, expected⟩
    · intro other version writes _
      cases writes
      rfl

omit consistent in
theorem activate_covered (meets : Meets db (.activate xid waited)) : Covered (activate db xid waited) := by
  rw [activate]
  by_cases may : (db.lifecycle.all (fun holder => decide (holder = xid)) && db.writable xid) = true
  · rw [if_pos may]
    by_cases isActive : (db.visible xid).active = true
    · rw [if_pos isActive]
      exact ensure_covered { db with lifecycle := some xid } ⟨covered.expected, covered.launches⟩ xid waited
    · rw [if_neg isActive]
      have free := meets (Bool.eq_false_iff.mpr isActive)
      rcases ensure_cases { db with
          lifecycle := some xid, writing := some (xid, { db.visible xid with active := true, pendingLaunchXid := none }) } xid waited with
        ⟨wrong, _⟩ | ⟨_, ⟨_, wrong⟩ | ⟨_, _, same⟩⟩
      · rw [free] at wrong
        cases wrong
      · simp [Database.visible, Database.writable] at wrong
      · rw [same]
        refine ⟨?_, ?_⟩
        · intro committed
          obtain ⟨worker, member, expected⟩ := covered.expected committed
          exact ⟨worker, List.mem_append_left _ member, expected⟩
        · intro other version writes _
          cases writes
          rfl
  · rw [if_neg may]
    exact covered

omit consistent covered in
theorem released_expected (running : db.xacts[xid]? = some .inProgress) (worker : Worker) (expected : Expected db worker) :
    Expected (released db xid status) worker := by
  refine ⟨released_xacts db status ?_ expected.1, expected.2⟩
  intro same
  have committed := expected.1
  rw [same, running] at committed
  cases committed

omit consistent in
theorem released_covered (running : db.xacts[xid]? = some .inProgress) :
    Covered (released db xid status) := by
  refine ⟨?_, ?_⟩
  · intro isActive
    obtain ⟨worker, member, expected⟩ := covered.expected isActive
    exact ⟨worker, member, released_expected db xid status running worker expected⟩
  · intro other version writes
    exact covered.launches other version (released_writing db xid status other version writes).1

theorem commit_covered (running : db.xacts[xid]? = some .inProgress) : Covered (commit db xid) := by
  have base := released_covered db covered xid .committed running
  refine ⟨?_, base.launches⟩
  intro isActive
  rcases commit_row db xid with ⟨version, writes, row⟩ | ⟨_, row⟩
  · rw [row] at isActive
    have pending := covered.launches xid version writes isActive
    obtain ⟨worker, member, launches, generation⟩ := consistent.registered xid version writes pending
    refine ⟨worker, member, ?_, ?_, ?_⟩
    · rw [launches]
      exact List.getElem?_set_self (List.getElem?_eq_some_iff.mp running).1
    · rw [row]
      exact generation
    · rw [row, pending, launches]
      exact decide_eq_true rfl
  · rw [row] at isActive
    obtain ⟨worker, member, expected⟩ := base.expected isActive
    refine ⟨worker, member, expected.1, ?_, ?_⟩
    · rw [row]
      exact expected.2.1
    · rw [row]
      exact expected.2.2

omit consistent in
theorem moved_covered (pid : Nat) {change : Worker → Worker} (identity : Option Holder) (nextPid : Nat)
    (same : ∀ other, (change other).launchXid = other.launchXid ∧ (change other).launchGeneration = other.launchGeneration) :
    Covered { db.setWorker pid change with identity, nextPid } := by
  refine ⟨?_, covered.launches⟩
  intro isActive
  obtain ⟨worker, member, committed, generation, pending⟩ := covered.expected isActive
  refine ⟨_, (set_mem db pid change _).mpr ⟨worker, member, rfl⟩, ?_⟩
  by_cases here : worker.pid = pid
  · rw [if_pos here, Expected, (same worker).1, (same worker).2]
    exact ⟨committed, generation, pending⟩
  · rw [if_neg here]
    exact ⟨committed, generation, pending⟩

-- A worker may leave where another one is expected.
theorem dismissed_covered (member : worker ∈ db.workers) (identity : Option Holder)
    (spare : db.runtime.active = true → ∃ other ∈ db.workers, Expected db other ∧ other ≠ worker) :
    Covered { db.dismiss worker.pid with identity } := by
  refine ⟨?_, covered.launches⟩
  intro isActive
  obtain ⟨other, known, expected, apart⟩ := spare isActive
  refine ⟨other, (dismiss_mem db worker.pid other).mpr ⟨known, ?_⟩, expected⟩
  intro same
  exact apart (same_worker consistent known member same)

theorem await_covered (member : worker ∈ db.workers) : Covered (waitForLaunchTransaction db worker) := by
  rw [waitForLaunchTransaction]
  cases status : db.xacts[worker.launchXid]? with
  | none => exact covered
  | some status_ =>
      cases status_ with
      | inProgress => exact covered
      | committed =>
          exact moved_covered db covered worker.pid db.identity db.nextPid
            fun _ => ⟨rfl, rfl⟩
      | aborted =>
          apply dismissed_covered db consistent covered worker member db.identity
          intro isActive
          obtain ⟨other, known, expected⟩ := covered.expected isActive
          refine ⟨other, known, expected, ?_⟩
          intro same
          have committed := expected.1
          rw [same, status] at committed
          cases committed

omit consistent covered in
theorem expected_claimable (expected : Expected db worker) (isActive : db.runtime.active = true) :
    claimable db.runtime worker = true := by
  rw [claimable, isActive, expected.2.1, expected.2.2, decide_eq_true rfl]
  rfl

omit consistent in
-- Where a claim is not the row's, another worker is expected.
theorem spare_expected (claims : claimable db.runtime worker = false) (isActive : db.runtime.active = true) :
    ∃ other ∈ db.workers, Expected db other ∧ other ≠ worker := by
  obtain ⟨other, known, expected⟩ := covered.expected isActive
  refine ⟨other, known, expected, ?_⟩
  intro same
  rw [← same, expected_claimable db other expected isActive] at claims
  cases claims

theorem try_covered (member : worker ∈ db.workers) (claiming : worker.phase = .claiming)
    (meets : Meets db (.tryIdentity worker.pid)) : Covered (tryRuntimeIdentity db worker) := by
  rw [tryRuntimeIdentity]
  cases locked : db.identity with
  | none =>
      exact moved_covered db covered worker.pid (some (.session worker.pid)) db.nextPid fun _ => ⟨rfl, rfl⟩
  | some holder =>
      simp only
      by_cases still : stillLaunchable db.runtime worker = true
      · rw [if_pos still]
        exact covered
      · rw [if_neg still]
        apply dismissed_covered db consistent covered worker member db.identity
        intro isActive
        rcases meets with free | unowned | ⟨owner, known, owning⟩
        · rw [locked] at free
          cases free
        · rw [stillLaunchable, unowned, Option.isNone_none, Bool.and_true, Bool.not_eq_true] at still
          exact spare_expected db covered worker still isActive
        · have place := consistent.placed owner known
          have row := place.owner owning
          refine ⟨owner, known, ⟨place.launched (by rw [owning]; rfl), ?_, ?_⟩, ?_⟩
          · rw [row]
          · rw [row]
            rfl
          · intro same
            rw [same, claiming] at owning
            cases owning

theorem record_covered (member : worker ∈ db.workers) (identified : worker.phase = .identified) :
    Covered (recordRuntimeOwner db worker) := by
  have launched := (consistent.placed worker member).launched (by rw [identified]; rfl)
  rw [recordRuntimeOwner]
  by_cases claims : claimable db.runtime worker = true
  · rw [if_pos claims]
    by_cases quiet : db.writing.isNone = true
    · rw [if_pos quiet]
      refine ⟨?_, covered.launches⟩
      intro _
      refine ⟨_, (set_mem db worker.pid _ _).mpr ⟨worker, member, rfl⟩, ?_⟩
      rw [if_pos rfl]
      exact ⟨launched, (claimable_row db.runtime claims).2.1.symm, rfl⟩
    · rw [if_neg quiet]
      exact covered
  · rw [if_neg claims]
    exact dismissed_covered db consistent covered worker member none
      (spare_expected db covered worker (Bool.eq_false_iff.mpr claims))

end

theorem step_covered (action : Action) (meets : Meets db action) : Covered (step db action) := by
  have transaction : ∀ (xid : Nat) (change : Database → Database),
      (db.xacts[xid]? = some .inProgress → Covered (change db)) → Covered (onTransaction db xid change) := by
    intro xid change keeps
    rcases on_transaction_cases db xid change with same | ⟨running, same⟩
    · rw [same]
      exact covered
    · rw [same]
      exact keeps running
  have process : ∀ (pid : Nat) (ready : WorkerPhase → Bool) (change : Worker → Database),
      (∀ worker ∈ db.workers, ready worker.phase = true → Covered (change worker)) → Covered (onWorker db pid ready change) := by
    intro pid ready change keeps
    rcases on_worker_cases db pid ready change with same | ⟨worker, member, fits, same⟩
    · rw [same]
      exact covered
    · rw [same]
      exact keeps worker member fits
  cases action with
  | start =>
      rw [step]
      refine ⟨?_, covered.launches⟩
      intro isActive
      obtain ⟨worker, member, committed, row⟩ := covered.expected isActive
      refine ⟨worker, member, ?_, row⟩
      rw [List.getElem?_append_left (List.getElem?_eq_some_iff.mp committed).1]
      exact committed
  | ensure xid waited =>
      rw [step]
      exact transaction xid _ fun _ => ensure_covered db covered xid waited
  | activate xid waited =>
      rw [step]
      exact transaction xid _ fun _ => activate_covered db covered xid waited meets
  | deactivate xid =>
      rw [step]
      apply transaction
      intro running
      rw [deactivate]
      by_cases may : (db.lifecycle.all (fun holder => decide (holder = xid)) &&
          db.identity.all (fun holder => decide (holder = .transaction xid)) && db.writable xid) = true
      · rw [if_pos may]
        refine ⟨covered.expected, ?_⟩
        intro other version writes isActive
        cases writes
        cases isActive
      · rw [if_neg may]
        exact covered
  | commit xid =>
      rw [step]
      exact transaction xid _ (commit_covered db consistent covered xid)
  | abort xid =>
      rw [step]
      exact transaction xid _ (released_covered db covered xid .aborted)
  | awaitLaunch pid =>
      rw [step]
      exact process pid _ _ fun worker member _ => await_covered db consistent covered worker member
  | tryIdentity pid =>
      rw [step]
      exact process pid _ _ fun worker member claiming =>
        try_covered db consistent covered worker member (of_decide_eq_true claiming) meets
  | recordOwner pid =>
      rw [step]
      exact process pid _ _ fun worker member identified =>
        record_covered db consistent covered worker member (of_decide_eq_true identified)
  | serve pid =>
      rw [step]
      apply process
      intro worker member owning
      rw [serve_idle consistent member (of_decide_eq_true owning)]
      exact covered
  | crash pid =>
      rw [step]
      exact process pid _ _ fun worker member _ => moved_covered db covered worker.pid _ db.nextPid fun _ => ⟨rfl, rfl⟩
  | restart pid =>
      rw [step]
      exact process pid _ _ fun worker member _ =>
        moved_covered db covered worker.pid db.identity (db.nextPid + 1) fun _ => ⟨rfl, rfl⟩

end Coverage

theorem run_covered (db : Database) (consistent : Consistent db) (covered : Covered db) (actions : List Action)
    (meet : AllMeet db actions) : Covered (run db actions) := by
  induction actions generalizing db with
  | nil => exact covered
  | cons action rest ih =>
      exact ih _ (step_consistent db consistent action) (step_covered db consistent covered action meet.1) meet.2

-- An owner, or a launch that its transaction has not ended, or a process that is to claim.
def Attended (db : Database) : Prop :=
  db.runtime.active = true →
    (∃ worker ∈ db.workers, worker.phase = .owning) ∨
    (∃ xid version, db.writing = some (xid, version) ∧ version.pendingLaunchXid = some xid) ∨
    ∃ worker ∈ db.workers, worker.phase ≠ .owning ∧ Expected db worker

-- Whoever runs and crashes when: one process at most holds the identity, an owner is
-- the one that the row names and of its generation; and while the steps lose no launch,
-- an active Runtime is attended.
theorem launch_protocol (actions : List Action) :
    (∀ first ∈ (run {} actions).workers, ∀ second ∈ (run {} actions).workers,
        first.phase.holds = true → second.phase.holds = true → first = second) ∧
      (∀ worker ∈ (run {} actions).workers, worker.phase = .owning →
        (run {} actions).runtime.ownerPid = some worker.pid ∧
          worker.launchGeneration = (run {} actions).runtime.launchGeneration) ∧
      (AllMeet {} actions → Attended (run {} actions)) := by
  have consistent := run_consistent {} consistent_start actions
  refine ⟨?_, ?_, ?_⟩
  · intro first one second other holds also
    exact same_session consistent other first one also holds
  · intro worker member owning
    have row := (consistent.placed worker member).owner owning
    rw [row]
    exact ⟨rfl, rfl⟩
  · intro meet isActive
    have idle : Covered {} := by
      refine ⟨fun wrong => absurd wrong Bool.false_ne_true, ?_⟩
      intro xid version wrong
      cases wrong
    obtain ⟨worker, member, expected⟩ := (run_covered {} consistent_start idle actions meet).expected isActive
    by_cases owning : worker.phase = .owning
    · exact .inl ⟨worker, member, owning⟩
    · exact .inr (.inr ⟨worker, member, owning, expected⟩)

-- An owner crashes while a source write has taken the identity lock for a launch of
-- its own; the restarted worker reads the crashed owner and leaves, then the launch aborts.
def orphaned : List Action :=
  [.start, .activate 0 false, .commit 0, .awaitLaunch 1, .tryIdentity 1, .recordOwner 1, .start, .crash 1, .ensure 1 false,
    .restart 1, .awaitLaunch 3, .tryIdentity 3, .abort 1, .awaitLaunch 2]

theorem orphaned_unattended :
    (run {} orphaned).runtime = ⟨true, some 1, 1, none⟩ ∧ (run {} orphaned).workers = [] ∧ (run {} orphaned).writing = none ∧
      ¬ Attended (run {} orphaned) := by
  refine ⟨by decide, by decide, by decide, ?_⟩
  have empty : (run {} orphaned).workers = [] := by decide
  have quiet : (run {} orphaned).writing = none := by decide
  intro attended
  rcases attended (by decide) with ⟨worker, member, _⟩ | ⟨xid, version, writes, _⟩ | ⟨worker, member, _⟩
  · rw [empty] at member
    cases member
  · rw [quiet] at writes
    cases writes
  · rw [empty] at member
    cases member

-- A source write has the identity lock while the database is activated.
example : (run {} [.start, .ensure 0 false, .start, .activate 1 false, .commit 1]).runtime.active = true ∧
    (run {} [.start, .ensure 0 false, .start, .activate 1 false, .commit 1]).workers = [] := by decide

end Shiba.Launch
