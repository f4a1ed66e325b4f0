import Mathlib.Tactic

set_option autoImplicit false

namespace Shiba.Launch

-- The row of runtime_state.
structure RuntimeState where
  active : Bool := false
  ownerPid : Option Nat := none
  launchGeneration : Nat := 0
  pendingLaunchXid : Option Nat := none
deriving DecidableEq, Repr

-- pg_xact_status of a launch transaction.
inductive XactStatus where
  | inProgress
  | committed
  | aborted
deriving DecidableEq, Repr

-- Who has the advisory lock of the Runtime identity.
inductive Holder where
  | transaction (xid : Nat)
  | session (pid : Nat)
deriving DecidableEq, Repr

-- Where a worker process is: in wait_for_launch_transaction, between two attempts of
-- wait_to_claim_runtime_identity, inside one with the session lock, in the main loop, or
-- ended by a panic with its restart ahead.
inductive WorkerPhase where
  | waiting
  | claiming
  | identified
  | owning
  | restarting
deriving DecidableEq, Repr

structure Worker where
  pid : Nat
  launchXid : Nat
  launchGeneration : Nat
  phase : WorkerPhase
deriving DecidableEq, Repr

-- `writing` is the row's version that a transaction has not committed yet.
structure Database where
  runtime : RuntimeState := {}
  writing : Option (Nat × RuntimeState) := none
  identity : Option Holder := none
  lifecycle : Option Nat := none
  xacts : List XactStatus := []
  workers : List Worker := []
  nextPid : Nat := 1
deriving DecidableEq, Repr

namespace Database

variable (db : Database)

def visible (xid : Nat) : RuntimeState :=
  match db.writing with
  | some (writer, version) => if writer = xid then version else db.runtime
  | none => db.runtime

-- An UPDATE waits for another transaction's version of the row.
def writable (xid : Nat) : Bool := db.writing.all fun version => decide (version.1 = xid)

def inProgress (xid : Nat) : Bool := decide (db.xacts[xid]? = some .inProgress)

def setWorker (pid : Nat) (change : Worker → Worker) : Database :=
  { db with workers := db.workers.map fun worker => if worker.pid = pid then change worker else worker }

def dismiss (pid : Nat) : Database := { db with workers := db.workers.filter fun worker => decide (worker.pid ≠ pid) }

end Database

-- `waited` says whether pending_since lies five seconds back.
def prepareRuntimeLaunch (db : Database) (xid : Nat) (waited : Bool) : Database × Option Nat :=
  if db.identity.all (fun holder => decide (holder = .transaction xid)) then
    let locked := { db with identity := some (.transaction xid) }
    let row := db.visible xid
    if row.active && row.pendingLaunchXid.all (fun pending => decide (pending ≠ xid) && waited) && db.writable xid then
      let generation := row.launchGeneration + 1
      ({ locked with
          writing := some (xid, { row with ownerPid := none, launchGeneration := generation, pendingLaunchXid := some xid }) },
        some generation)
    else (locked, none)
  else (db, none)

def startRuntime (db : Database) (xid launchGeneration : Nat) : Database :=
  { db with workers := db.workers ++ [⟨db.nextPid, xid, launchGeneration, .waiting⟩], nextPid := db.nextPid + 1 }

def ensureRuntime (db : Database) (xid : Nat) (waited : Bool) : Database :=
  let prepared := prepareRuntimeLaunch db xid waited
  match prepared.2 with
  | some generation => startRuntime prepared.1 xid generation
  | none => prepared.1

-- activate_database and ensure_runtime, under the lifecycle lock.
def activate (db : Database) (xid : Nat) (waited : Bool) : Database :=
  if db.lifecycle.all (fun holder => decide (holder = xid)) && db.writable xid then
    let locked := { db with lifecycle := some xid }
    let row := db.visible xid
    if row.active then ensureRuntime locked xid waited
    else ensureRuntime { locked with writing := some (xid, { row with active := true, pendingLaunchXid := none }) } xid waited
  else db

-- stop_runtime_for_deactivation comes back with the identity lock.
def deactivate (db : Database) (xid : Nat) : Database :=
  if db.lifecycle.all (fun holder => decide (holder = xid)) && db.identity.all (fun holder => decide (holder = .transaction xid)) &&
      db.writable xid then
    { db with
      lifecycle := some xid
      identity := some (.transaction xid)
      writing := some (xid, { db.visible xid with active := false, ownerPid := none, pendingLaunchXid := none }) }
  else db

def released (db : Database) (xid : Nat) (status : XactStatus) : Database :=
  { db with
    writing := db.writing.filter fun version => decide (version.1 ≠ xid)
    identity := db.identity.filter fun holder => decide (holder ≠ .transaction xid)
    lifecycle := db.lifecycle.filter fun holder => decide (holder ≠ xid)
    xacts := db.xacts.set xid status }

def commit (db : Database) (xid : Nat) : Database := { released db xid .committed with runtime := db.visible xid }

def abort (db : Database) (xid : Nat) : Database := released db xid .aborted

def waitForLaunchTransaction (db : Database) (worker : Worker) : Database :=
  match db.xacts[worker.launchXid]? with
  | some .committed => db.setWorker worker.pid fun worker => { worker with phase := .claiming }
  | some .aborted => db.dismiss worker.pid
  | _ => db

-- The row that a claim records its owner in.
def claimable (runtime : RuntimeState) (worker : Worker) : Bool :=
  runtime.active && decide (runtime.launchGeneration = worker.launchGeneration) &&
    runtime.pendingLaunchXid.all fun pending => decide (pending = worker.launchXid)

def stillLaunchable (runtime : RuntimeState) (worker : Worker) : Bool := claimable runtime worker && runtime.ownerPid.isNone

-- claim_runtime_identity up to its session lock: Retry, Rejected, or on with the lock.
def tryRuntimeIdentity (db : Database) (worker : Worker) : Database :=
  match db.identity with
  | none =>
      { db.setWorker worker.pid fun worker => { worker with phase := .identified } with identity := some (.session worker.pid) }
  | some _ => if stillLaunchable db.runtime worker then db else db.dismiss worker.pid

-- The rest of claim_runtime_identity: Claimed, or the lock is given back.
def recordRuntimeOwner (db : Database) (worker : Worker) : Database :=
  if claimable db.runtime worker then
    if db.writing.isNone then
      { db.setWorker worker.pid fun worker => { worker with phase := .owning } with
        runtime := { db.runtime with ownerPid := some worker.pid, pendingLaunchXid := none } }
    else db
  else { db.dismiss worker.pid with identity := none }

-- A turn of the main loop: the owner leaves when the Runtime is not active.
def serve (db : Database) (worker : Worker) : Database :=
  if db.runtime.active || db.writing.isSome then db
  else
    { db.dismiss worker.pid with
      identity := none
      runtime := if db.runtime.ownerPid = some worker.pid then { db.runtime with ownerPid := none } else db.runtime }

-- The session ends, and with it its lock; the row keeps what it names.
def crash (db : Database) (worker : Worker) : Database :=
  { db.setWorker worker.pid fun worker => { worker with phase := .restarting } with
    identity := db.identity.filter fun holder => decide (holder ≠ .session worker.pid) }

def restartWorker (db : Database) (worker : Worker) : Database :=
  { db.setWorker worker.pid fun worker => { worker with pid := db.nextPid, phase := .waiting } with nextPid := db.nextPid + 1 }

inductive Action where
  | start
  | ensure (xid : Nat) (waited : Bool)
  | activate (xid : Nat) (waited : Bool)
  | deactivate (xid : Nat)
  | commit (xid : Nat)
  | abort (xid : Nat)
  | awaitLaunch (pid : Nat)
  | tryIdentity (pid : Nat)
  | recordOwner (pid : Nat)
  | serve (pid : Nat)
  | crash (pid : Nat)
  | restart (pid : Nat)
deriving DecidableEq, Repr

def onTransaction (db : Database) (xid : Nat) (change : Database → Database) : Database :=
  if db.inProgress xid then change db else db

def onWorker (db : Database) (pid : Nat) (ready : WorkerPhase → Bool) (change : Worker → Database) : Database :=
  match db.workers.find? fun worker => decide (worker.pid = pid) with
  | some worker => if ready worker.phase then change worker else db
  | none => db

-- An action that is not possible leaves everything as it is.
def step (db : Database) : Action → Database
  | .start => { db with xacts := db.xacts ++ [.inProgress] }
  | .ensure xid waited => onTransaction db xid fun db => ensureRuntime db xid waited
  | .activate xid waited => onTransaction db xid fun db => Launch.activate db xid waited
  | .deactivate xid => onTransaction db xid fun db => Launch.deactivate db xid
  | .commit xid => onTransaction db xid fun db => Launch.commit db xid
  | .abort xid => onTransaction db xid fun db => Launch.abort db xid
  | .awaitLaunch pid => onWorker db pid (fun phase => decide (phase = .waiting)) (waitForLaunchTransaction db)
  | .tryIdentity pid => onWorker db pid (fun phase => decide (phase = .claiming)) (tryRuntimeIdentity db)
  | .recordOwner pid => onWorker db pid (fun phase => decide (phase = .identified)) (recordRuntimeOwner db)
  | .serve pid => onWorker db pid (fun phase => decide (phase = .owning)) (Launch.serve db)
  | .crash pid => onWorker db pid (fun phase => decide (phase ≠ .restarting)) (Launch.crash db)
  | .restart pid => onWorker db pid (fun phase => decide (phase = .restarting)) (restartWorker db)

def run (db : Database) (actions : List Action) : Database := actions.foldl step db

end Shiba.Launch
