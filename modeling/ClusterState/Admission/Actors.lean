import ClusterState.Admission.Requests

/-! # Coordinator, recovery, worker fence and GC claim

The four entry points of `maintenance-admission.py`, statement by statement.
Each call of `now()` is a request of its own. `sleep` has no effect that
another pod could see and is left out; the two polling loops, which the source
bounds by the clock only, are unrolled `fuel` times.
-/

namespace ClusterState.Admission

open Concurrency

def tokenExpiry : ℚ := 1825372800

section Actors

variable (sha256 : String → String)

/-! ## GC claim -/

/-- The retired slot, and whether it is free afterwards. -/
def retireGc (state : State) (snapshot : List Pod) : Except Fault (State × Bool) :=
  match state.gcHolder with
  | none => .ok (state, true)
  | some gc => do
    if ← terminal snapshot gc.identity then return ({ state with gcHolder := none }, true)
    else return (state, false)

/-- `next((p for p in pods if pod_identity(p) == me), None)`. -/
def findIdentity (me : Identity) : List Pod → Except Fault (Option Pod)
  | [] => .ok none
  | p :: rest => do
    if (← podIdentity p) == me then return some p else findIdentity me rest

def gcClaim (store : Store) (me : Identity) : Api Unit := do
  require (me.ns == workerNamespace) "wrong GC namespace"
  match ← findIdentity me (← pods workerNamespace) with
  | none => throw (.refuse "GC identity absent")
  | some own =>
    require (own.label "app" == some "hestia-ci-store-gc") "GC identity absent"
    let job : Job ← call (.getJob workerNamespace me.job)
    require (job.ns == workerNamespace && job.name == me.job && job.uid == me.jobUid
      && job.deletionTimestamp == ""
      && own.template.serviceAccountName == "hestia-ci-store-gc"
      && job.template.serviceAccountName == "hestia-ci-store-gc")
      "GC Job generation or policy changed"
    require ((← bundle job.template) == (← bundle own.template))
      "GC Job generation or policy changed"
    let _ ← call .gate
    let (cm, state) ← store.read sha256 .entry
    require ((state.phase == .idle || state.phase == .done) && state.gcHolder.isNone)
      "GC admission closed"
    let t ← now
    let _ ← store.save sha256 cm { state with gcHolder := some ⟨me, ⌊t⌋⟩ }
    let _ ← call .gate

/-! ## Coordinator -/

/-- The filter of the drain loop for the worker pod of this slot. -/
def isWorker (own : Pod) (slot : Int) (p : Pod) : Api Bool := do
  if p.ns == workerNamespace && p.label "app" == some "hestia-ci-cache-retention" then
    if (← bundle p.template) == (← bundle own.template) then
      if (p.phase == "Pending" || p.phase == "Running") && p.deletionTimestamp == "" then
        return (← scheduled p "hestia-ci-cache-retention") == slot
      else return false
    else return false
  else return false

def filterWorkers (own : Pod) (slot : Int) : List Pod → Api (List Pod)
  | [] => return []
  | p :: rest => do
    let keep ← isWorker own slot p
    let others ← filterWorkers own slot rest
    return if keep then p :: others else others

/-- One round of the drain loop: `true` when the worker was admitted. -/
def drainRound (store : Store) (me : Identity) (own : Pod) (slot : Int) : Api Bool := do
  let (cm, state) ← store.read sha256 .entry
  require (state.phase == .draining) "drain ownership sealed"
  let op ← theOperation state
  require (op.coordinator == me) "drain ownership sealed"
  let snapshot ← snapshotAll
  let (state, free) ← retireGc state snapshot
  if !free then return false
  else if !(← runner) then return false
  else if !(← drained) then return false
  else if !(← ciDrained snapshot) then return false
  else
    match ← filterWorkers own slot snapshot with
    | [] => return false
    | [worker] =>
      let op ← theOperation state
      let ident ← podIdentity worker
      let _ ← store.save sha256 cm { state with
        phase := .admitted
        operation := some { op with worker := some ident, outcome := "admitted" } }
      return true
    | _ => throw (.refuse "ambiguous worker generation")

def drainLoop (store : Store) (me : Identity) (own : Pod) (slot : Int) : Nat → Api Bool
  | 0 => .halt
  | fuel + 1 => do
    if (← now) < slot + 1200 then
      if ← drainRound sha256 store me own slot then return true
      else drainLoop store me own slot fuel
    else return false

def drain (store : Store) (me : Identity) (own : Pod) (slot : Int) (fuel : Nat) : Api Unit := do
  if ← drainLoop sha256 store me own slot fuel then return ()
  else
    let (cm, state) ← store.read sha256 .entry
    require (state.phase == .draining) "drain already closed"
    let op ← theOperation state
    let _ ← store.save sha256 cm { state with
      phase := .closing
      operation := some { op with outcome := "drain-timeout" } }
    throw (.refuse "natural drain deadline; accepted jobs unchanged")

/-- The only pause attempt; an ambiguous one is latched. -/
def pauseRunner (store : Store) (op : Operation) : Api Unit :=
  tryCatchThe Fault
    (do
      let _ ← call (.putRunner op true)
      require (← runner) "pause readback failed")
    (fun _ => do
      let (cm, state) ← store.read sha256 .entry
      let op ← theOperation state
      alert sha256 store cm { state with operation := some { op with write := .unknown } }
        "unknown-pause-write")

def pauseAndDrain (store : Store) (me : Identity) (own : Pod) (slot : Int) (cm : ConfigMap)
    (state : State) (fuel : Nat) : Api Unit := do
  let op := newOperation sha256 slot me store.policy
  let _ ← store.save sha256 cm { state with operation := some op, phase := .pauseIntent }
  pauseRunner sha256 store op
  let (cm, state) ← store.read sha256 .entry
  require (state.phase == .pauseIntent) "pause ownership lost"
  let op ← theOperation state
  require (op.coordinator == me) "pause ownership lost"
  let _ ← store.save sha256 cm { state with
    phase := .draining
    operation := some { op with write := .none } }
  drain sha256 store me own slot fuel

/-- The previous operation is older and its restoration holder has retired. -/
def previousRetired (snapshot : List Pod) (slot : Int) : Option Operation → Except Fault Unit
  | none => .ok ()
  | some old => do
    require (old.slot < slot) "previous restoration holder not retired"
    match old.holder with
    | none => .error (.refuse "previous restoration holder not retired")
    | some holder =>
      require (← terminal snapshot holder) "previous restoration holder not retired"

def coordinate (store : Store) (me : Identity) (fuel : Nat) : Api Unit := do
  let snapshot ← snapshotAll
  match snapshot.find? (fun p => p.uid == me.uid) with
  | none => throw (.refuse "coordinator absent")
  | some own =>
    require ((← podIdentity own) == me) "coordinator absent"
    let slot ← scheduled own "hestia-ci-maintenance-admission"
    let t ← now
    require (0 ≤ t - slot && t - slot ≤ 90) "late/old schedule refused"
    let (cm, state) ← store.read sha256 .entry
    require (state.phase == .idle || state.phase == .done) "operation not closed"
    let t ← now
    require (0 ≤ t - state.heartbeat && t - state.heartbeat ≤ 150)
      "stale recovery heartbeat or expiring token"
    let t ← now
    require (t + 2700 < tokenExpiry) "stale recovery heartbeat or expiring token"
    previousRetired snapshot slot state.operation
    let baseline ← runner
    -- a runner that is already paused is left alone
    if baseline then return ()
    else pauseAndDrain sha256 store me own slot cm state fuel

/-! ## Recovery -/

def restoreOutcome (op : Operation) (snapshot : List Pod) : Except Fault String :=
  if op.claimed then
    match op.worker with
    | none => .error .other
    | some w =>
      match snapshot.find? (fun p => p.uid == w.uid) with
      | none => .error .other
      | some worker =>
        .ok (if worker.phase == "Succeeded" then "cleanup-succeeded" else "cleanup-failed")
  else if op.outcome == "admitted" then .ok "worker-unclaimed"
  else if op.outcome == "pause-intent" then .ok "coordinator-failed"
  else .ok op.outcome

/-- The only restore attempt; an ambiguous one is latched. -/
def restoreRunner (store : Store) (op : Operation) : Api Unit :=
  tryCatchThe Fault
    (do
      let _ ← call (.putRunner op op.baseline)
      require ((← runner) == op.baseline) "restore readback failed")
    (fun _ => do
      let (cm, state) ← store.read sha256 .entry
      let op ← theOperation state
      alert sha256 store cm { state with operation := some { op with write := .unknown } }
        "unknown-restore-write")

def restore (store : Store) (me : Identity) (snapshot : List Pod) (cm : ConfigMap) (state : State)
    (op : Operation) : Api Unit := do
  let outcome ← restoreOutcome op snapshot
  let op := { op with outcome := outcome, holder := some me, write := .restore }
  let _ ← store.save sha256 cm { state with phase := .restoring, operation := some op }
  restoreRunner sha256 store op
  let (cm, state) ← store.read sha256 .entry
  require (state.phase == .restoring) "restoration ownership lost"
  let op ← theOperation state
  require (op.holder == some me) "restoration ownership lost"
  let _ ← store.save sha256 cm { state with
    phase := .done
    operation := some { op with write := .none, restored := true } }

/-- `terminal(snapshot, op['worker'])` for a claimed operation. -/
def workerRetired (snapshot : List Pod) (op : Operation) (unclaimed : Bool) : Except Fault Bool :=
  if op.claimed then
    match op.worker with
    | some w => terminal snapshot w
    | none => .error .other
  else .ok unclaimed

/-- The retirement evidence needed before restoration; the snapshot is the one
taken before the seal. -/
def quiescent (snapshot : List Pod) (op : Operation) : Except Fault Bool := do
  if ← terminal snapshot op.coordinator then
    if ← workerRetired snapshot op true then
      match op.holder with
      | none => return true
      | some holder => terminal snapshot holder
    else return false
  else return false

def restoreIfQuiescent (store : Store) (me : Identity) (snapshot : List Pod) (cm : ConfigMap)
    (state : State) : Api Unit := do
  let op ← theOperation state
  if !(← quiescent snapshot op) then return ()
  else if op.write != .none then alert sha256 store cm state "unresolved-remote-write"
  else restore sha256 store me snapshot cm state op

/-- Too early to close the operation in this phase. -/
def stillOpen (snapshot : List Pod) (phase : Phase) (op : Operation) : Api Bool :=
  match phase with
  | .pauseIntent | .draining => do
    if (← now) < op.drainBy then return !(← terminal snapshot op.coordinator) else return false
  | .admitted | .claimed => do
    if (← now) < op.cleanupBy then
      return !(← workerRetired snapshot op false)
    else return false
  | _ => return false

def closeOperation (store : Store) (me : Identity) (cm : ConfigMap) (state : State) : Api Unit := do
  if state.phase == .idle || state.phase == .done then return ()
  else
    let snapshot ← snapshotAll
    let t ← now
    let op ← theOperation state
    if op.recoverBy ≤ t then alert sha256 store cm state "recovery-horizon-exceeded"
    else
      if ← stillOpen snapshot state.phase op then return ()
      else if state.phase != .restoring then
        -- the seal races the only ADMITTED to CLAIMED step
        let _ ← store.save sha256 cm { state with phase := .closing }
        let (cm, state) ← store.read sha256 .again
        restoreIfQuiescent sha256 store me snapshot cm state
      else restoreIfQuiescent sha256 store me snapshot cm state

def retireGcAndClose (store : Store) (me : Identity) (cm : ConfigMap) (state : State) :
    Api Unit := do
  match state.gcHolder with
  | none => closeOperation sha256 store me cm state
  | some gc =>
    let (retired, free) ← retireGc state (← snapshotAll)
    if !free then
      if gc.claimedAt + 2700 ≤ (← now) then
        alert sha256 store cm state "GC-retirement-horizon-exceeded"
      else return ()
    else
      let _ ← store.save sha256 cm retired
      let (cm, state) ← store.read sha256 .again
      closeOperation sha256 store me cm state

/-- Readiness of token and API; a failure latches an open operation. -/
def recoveryReady (store : Store) (cm : ConfigMap) (state : State) : Api Unit :=
  tryCatchThe Fault
    (do
      require ((← now) + 60 < tokenExpiry) "token expired/expiring"
      let _ ← runner)
    (fun e => do
      if state.operation.isSome && state.phase != .done then
        alert sha256 store cm state "recovery-api-or-credential-unavailable"
      else throw e)

def recover (store : Store) (me : Identity) : Api Unit := do
  let (cm, state) ← store.read sha256 .entry
  if state.phase == .alert then
    throw (.refuse "latched ALERT; operator reconciliation required")
  else
    recoveryReady sha256 store cm state
    let t ← now
    let _ ← store.save sha256 cm { state with heartbeat := ⌊t⌋ }
    let (cm, state) ← store.read sha256 .again
    retireGcAndClose sha256 store me cm state

/-! ## Worker fence -/

def WorkerFence.check (store : Store) (me : Identity) (operation : String) : Api Unit := do
  let (_, state) ← store.read sha256 .entry
  require (state.phase == .claimed) "worker fence revoked"
  let op ← theOperation state
  require (op.id == operation && op.worker == some me && op.claimed == true && op.write == .none)
    "worker fence revoked"
  require ((← now) < op.cleanupBy) "worker fence revoked"

/-- One round of the admission loop: the operation claimed, if any. -/
def WorkerFence.claimRound (store : Store) (me : Identity) : Api (Option String) := do
  let (cm, state) ← store.read sha256 .entry
  match state.operation.filter (fun op => op.worker == some me) with
  | some op =>
    require ((← now) < op.cleanupBy) "worker deadline expired"
    if state.phase == .admitted then
      require state.gcHolder.isNone "GC holder not retired"
      let _ ← store.save sha256 cm { state with
        phase := .claimed
        operation := some { op with claimed := true } }
      WorkerFence.check sha256 store me op.id
      return some op.id
    else
      require (state.phase == .pauseIntent || state.phase == .draining) "worker claim sealed"
      require (state.phase != .alert && state.phase != .closing && state.phase != .restoring)
        "admission closed"
      return none
  | none =>
    require (state.phase != .alert && state.phase != .closing && state.phase != .restoring)
      "admission closed"
    return none

def WorkerFence.claimLoop (store : Store) (me : Identity) (deadline : ℚ) : Nat → Api String
  | 0 => .halt
  | fuel + 1 => do
    if (← now) < deadline then
      match ← WorkerFence.claimRound sha256 store me with
      | some op => return op
      | none => WorkerFence.claimLoop store me deadline fuel
    else throw (.refuse "worker admission deadline")

/-- `WorkerFence(store, me).claim()`; the operation the fence is bound to. -/
def WorkerFence.claim (store : Store) (me : Identity) (fuel : Nat) : Api String := do
  require (me.ns == workerNamespace) "wrong worker namespace"
  let t ← now
  WorkerFence.claimLoop sha256 store me (t + 1200) fuel

/-- The calls of `check` that `retain` makes through its gate. -/
def WorkerFence.checks (store : Store) (me : Identity) (operation : String) : Nat → Api Unit
  | 0 => .halt
  | fuel + 1 => do
    WorkerFence.check sha256 store me operation
    let _ ← call (.note (.checkReturned operation))
    WorkerFence.checks store me operation fuel

/-- The admission side of `cache-retention.py`: one claim, then checks. -/
def worker (store : Store) (me : Identity) (fuel : Nat) : Api Unit := do
  let operation ← WorkerFence.claim sha256 store me fuel
  let _ ← call (.note (.claimReturned operation))
  WorkerFence.checks sha256 store me operation fuel

def gc (store : Store) (me : Identity) : Api Unit := do
  gcClaim sha256 store me
  let _ ← call (.note .gcReturned)

end Actors

end ClusterState.Admission
