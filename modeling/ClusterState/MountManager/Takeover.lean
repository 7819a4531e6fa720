import ClusterState.Concurrency.Evaluation
import ClusterState.MountManager.Handlers

/-! # Taking over from a predecessor

`Manager.TakeoverFrom` walks through the inventory of the mount service it
replaces and moves one volume after the other: export, finalize, import. Nothing
else runs meanwhile, and everything outside the two managers is an input: what
the host and the workers answer, how workers react to signals, and which calls
and replies get through.
-/

namespace ClusterState.MountManager

open Concurrency

/-- How a worker reacts to being stopped: it is gone after SIGTERM, gone after
SIGKILL, dies too late for `stop`, or does not die. -/
inductive Fate where
  | term
  | kill
  | late
  | survives
  deriving DecidableEq, Repr

/-- Everything that is not up to the manager. A poll that is repeated until a
deadline is answered as its last repetition is. -/
structure Outcomes where
  probe : (q : Probe) → q.Value
  start : Command → Except String Unit
  unmountTarget : String → Except String Unit
  fate : ProcessId → Fate

def State.bury (d : Deployment) (p : ProcessId) (s : State) : State :=
  match s.processes[p]? with
  | none => s
  | some w =>
    (((s.modifyProcess p (fun w => { w with stage := .exited })).after d (.waiter p) (.cmdWait p)
      (w.target, w.volumeID)).after d (.waiter p) (.closeDone p) ()).after d (.waiter p)
      (.detachMount w.volumeID) ()

def State.die (p : ProcessId) (s : State) : State :=
  s.modifyProcess p (fun w => { w with stage := .exited })

def Outcomes.observe (O : Outcomes) (s : State) : (q : Probe) → q.Value
  | .getMount v => s.mountOf v
  | .signal0 p => (s.processes[p]?).any (fun w => w.stage = .running)
  | .awaitDone p => (s.processes[p]?).any (fun w => Stage.closed.rank ≤ w.stage.rank)
  | .preserveMountOnExit p => (s.processes[p]?).any (·.preserveMountOnExit)
  | .mountFD p => (s.processes[p]?).bind (·.mountFD)
  | .deadlinePassed => true
  | q => O.probe q

/-- What an operation of a handler does when nothing else runs. A mutex that is
locked stays so. -/
def Outcomes.respond (O : Outcomes) (d : Deployment) :
    (r : Request) → State → Option (Answer r × State)
  | .get k, s => some (s.locks.mutexOf k, { s with locks := s.locks.get (.request 0) k })
  | .lock k m, s =>
    if s.locks.locked m = false then some ((), { s with locks := s.locks.lock (.request 0) k m })
    else none
  | .unlock k m, s => some ((), { s with locks := s.locks.unlock (.request 0) k m })
  | .own (.probe (.kill p)), s =>
    some ((), match O.fate p with
      | .kill => s.bury d p
      | .late => s.die p
      | _ => s)
  | .own (.probe q), s => some (O.observe s q, s)
  | .own (.terminate p), s =>
    let s' := s.after d (.request 0) (.terminate p) ()
    some ((), match O.fate p with
      | .term => s'.bury d p
      | _ => s')
  | .own .takeoverInProgress, s => some (s.takeover, s)
  | .own .listMounts, s => some (s.listing, s.after d (.request 0) .listMounts s.listing)
  | .own (.start cmd), s =>
    let x := (O.start cmd).map fun _ => s.processes.length
    some (x, s.after d (.request 0) (.start cmd) x)
  | .own (.unmountTarget target), s => some (O.unmountTarget target, s)
  | .own (.setTakeoverInProgress b), s =>
    some ((), s.after d (.request 0) (.setTakeoverInProgress b) ())
  | .own (.putMount v e), s => some ((), s.after d (.request 0) (.putMount v e) ())
  | .own (.removeMount v), s => some ((), s.after d (.request 0) (.removeMount v) ())
  | .own (.detachMount v), s => some ((), s.after d (.request 0) (.detachMount v) ())
  | .own (.setPreserveMountOnExit p b), s =>
    some ((), s.after d (.request 0) (.setPreserveMountOnExit p b) ())
  | .own (.recordMountFD p fd), s => some ((), s.after d (.request 0) (.recordMountFD p fd) ())
  | .own (.cmdWait _), _ => none
  | .own (.closeDone _), _ => none
  | .own (.reply r), s => some ((), s.after d (.request 0) (.reply r) ())

/-- How a call of the client fares: its reply arrives, the reply is lost after
the handler has run, the call does not get through, or the service does not know
it. -/
inductive Delivery where
  | delivered
  | lost (err : String)
  | unreached (err : String)
  | unsupported
  deriving DecidableEq, Repr

structure World where
  weedBinary : String
  /-- `NewClient` and `ParseEndpoint`. -/
  client : Except String Unit
  predecessor : Outcomes
  successor : Outcomes
  delivery : Call → Delivery
  /-- The error of a client that has waited too long. -/
  timeout : String
  /-- `HandoffSocketPath` of a volume. -/
  handoffSocketPath : String → String
  /-- The removal of a stale handoff socket; one that does not exist is fine. -/
  removeHandoff : String → Except String Unit
  listen : String → Except String Unit
  /-- `acceptFileDescriptor`, after a descriptor has been sent. -/
  receive : String → Except String (Option Nat)

namespace World

/-- The managers of a world; a poll needs no repetition. -/
def deployment (w : World) : Deployment := ⟨fun _ => .releaseTakeover none, w.weedBinary, 1⟩

def rpc (w : World) (call : Call) (old : State) : Except String Response × State :=
  let served := (handle w.deployment call).eval (w.predecessor.respond w.deployment) old
  match w.delivery call with
  | .unreached err => (.error err, old)
  | .unsupported => (.error "mount service takeover unsupported by predecessor", old)
  | .lost err => (.error err, served.2)
  | .delivered => (served.1.getD (.error w.timeout), served.2)

def notQuiescent (volumeID : String) : Option HotRestartStatus → String
  | none => "volume " ++ volumeID ++ " is not quiescent for takeover"
  | some status => "volume " ++ volumeID ++ " is not quiescent for takeover: open_file_handles=" ++
      toString status.openFileHandles ++ " open_directory_handles=" ++
      toString status.openDirectoryHandles ++ " pending_async_flushes=" ++
      toString status.pendingAsyncFlushes

def receiveExportedFileDescriptor (w : World) (volumeID : String) (old : State) :
    Except String (Option Nat × TakeoverExportResponse) × State :=
  let socketPath := w.handoffSocketPath volumeID
  match w.removeHandoff socketPath with
  | .error err => (.error ("remove stale handoff socket: " ++ err), old)
  | .ok () =>
    match w.listen socketPath with
    | .error err => (.error err, old)
    | .ok () =>
      match w.rpc (.exportTakeover (some ⟨volumeID, socketPath⟩)) old with
      | (.error err, old) => (.error err, old)
      | (.ok (.exported resp), old) =>
        if resp.accepted then
          match w.receive socketPath with
          | .error err => (.error err, old)
          | .ok file => (.ok (file, resp), old)
        else (.ok (none, resp), old)
      | (.ok _, old) => (.error "takeover export returned nil response", old)

def importMount (w : World) (mount : TakeoverMount) (fdFile : Nat) (new : State) :
    Option (Except String Response) × State :=
  (importTakeoverMount w.deployment mount fdFile).eval (w.successor.respond w.deployment) new

def takeoverMount (w : World) (mount : TakeoverMount) (old new : State) :
    Except String Unit × State × State :=
  match w.receiveExportedFileDescriptor mount.volumeID old with
  | (.error err, old) => (.error err, old, new)
  | (.ok (fdFile, resp), old) =>
    if resp.accepted = false then
      (.error (notQuiescent mount.volumeID resp.status), old, new)
    else
      match fdFile with
      | none =>
        (.error ("takeover export for volume " ++ mount.volumeID ++ " returned no live FUSE fd"),
          old, new)
      | some fdFile =>
        match w.rpc (.finalizeTakeover (some ⟨mount.volumeID⟩)) old with
        | (.error err, old) =>
          (.error err, (w.rpc (.cancelTakeover (some ⟨mount.volumeID⟩)) old).2, new)
        | (.ok _, old) =>
          match w.importMount (resp.mount.getD mount) fdFile new with
          | (some (.ok _), new) => (.ok (), old, new)
          | (some (.error err), new) => (.error err, old, new)
          | (none, new) => (.error w.timeout, old, new)

def takeoverMounts (w : World) : List TakeoverMount → State → State →
    Except String Unit × State × State
  | [], old, new => (.ok (), old, new)
  | mount :: rest, old, new =>
    match w.takeoverMount mount old new with
    | (.error err, old, new) => (.error err, old, new)
    | (.ok (), old, new) => takeoverMounts w rest old new

def takeoverFrom (w : World) (old : State) : Except String Unit × State × State :=
  match w.client with
  | .error err => (.error err, old, .initial)
  | .ok () =>
    match w.rpc (.takeoverInventory (some ())) old with
    | (.ok (.inventory mounts), old) =>
      match w.takeoverMounts mounts old .initial with
      | (.ok (), old, new) => (.ok (), old, new)
      | (.error err, old, new) =>
        (.error err, (w.rpc (.releaseTakeover (some ())) old).2, new)
    | (.error err, old) =>
      if w.delivery (.takeoverInventory (some ())) = .unsupported then (.error err, old, .initial)
      else (.error err, (w.rpc (.releaseTakeover (some ())) old).2, .initial)
    | (.ok _, old) => (.error w.timeout, (w.rpc (.releaseTakeover (some ())) old).2, .initial)

end World

end ClusterState.MountManager
