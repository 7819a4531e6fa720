import ClusterState.Concurrency.KeyedLock

/-! # The mount service and its workers

`mountmanager.Manager` serves requests concurrently, each in its own goroutine,
and every `weed mount` process it starts has a goroutine `wait` of its own. What
these share is the manager (its mounts, its lock per volume and its takeover
flag) and the processes. One critical section of `m.mu` is one step.
-/

namespace ClusterState.MountManager

open Concurrency

structure MountRequest where
  volumeID : String
  targetPath : String
  cacheDir : String
  mountArgs : List String
  localSocket : String
  deriving DecidableEq, Repr

structure UnmountRequest where
  volumeID : String
  deriving DecidableEq, Repr

structure TakeoverMount where
  volumeID : String
  targetPath : String
  cacheDir : String
  mountArgs : List String
  localSocket : String
  deriving DecidableEq, Repr

structure TakeoverExportRequest where
  volumeID : String
  handoffSocket : String
  deriving DecidableEq, Repr

/-- `TakeoverFinalizeRequest` and `TakeoverCancelRequest`. -/
structure TakeoverVolumeRequest where
  volumeID : String
  deriving DecidableEq, Repr

structure HotRestartStatus where
  openFileHandles : UInt64
  openDirectoryHandles : UInt64
  pendingAsyncFlushes : UInt64
  quiescent : Bool
  blockingNewHandles : Bool
  deriving DecidableEq, Repr

structure PrepareHotRestartResult where
  accepted : Bool
  status : HotRestartStatus
  deriving DecidableEq, Repr

structure TakeoverExportResponse where
  accepted : Bool
  mount : Option TakeoverMount
  status : Option HotRestartStatus
  deriving DecidableEq, Repr

/-- A `weed mount` process, by its place in the order of the starts. -/
abbrev ProcessId := Nat

structure MountEntry where
  volumeID : String
  targetPath : String
  cacheDir : String
  mountArgs : List String
  localSocket : String
  process : ProcessId
  deriving DecidableEq, Repr

/-- A request as its handler gets it; `none` is a nil request. -/
inductive Call where
  | mount (req : Option MountRequest)
  | unmount (req : Option UnmountRequest)
  | takeoverInventory (req : Option Unit)
  | exportTakeover (req : Option TakeoverExportRequest)
  | finalizeTakeover (req : Option TakeoverVolumeRequest)
  | cancelTakeover (req : Option TakeoverVolumeRequest)
  | releaseTakeover (req : Option Unit)
  | importTakeoverMount (mount : TakeoverMount) (fdFile : Nat)
  deriving DecidableEq, Repr

/-- What a handler returns. The response of a mount names the process behind
its socket, which the response of the source does not carry. -/
inductive Response where
  | mounted (localSocket : String) (process : ProcessId)
  | unmounted
  | inventory (mounts : List TakeoverMount)
  | exported (resp : TakeoverExportResponse)
  | finalized
  | cancelled
  | released
  | imported
  deriving DecidableEq, Repr

/-- A request being served, or the goroutine `wait` of a process. -/
inductive Thread where
  | request (n : Nat)
  | waiter (p : ProcessId)
  deriving DecidableEq, Repr

/-- How far a process has got: it runs, has exited, has been waited for, its
`done` channel is closed, its `onExit` callback has returned. -/
inductive Stage where
  | running
  | exited
  | reaped
  | closed
  | finished
  deriving DecidableEq, Repr

def Stage.rank : Stage → Nat
  | .running => 0
  | .exited => 1
  | .reaped => 2
  | .closed => 3
  | .finished => 4

/-- A process as `startWeedMountProcess` makes it. The last three fields are not
in the source: whether SIGTERM was sent to it, whether an entry of the manager
has ever named it, and whether a mount request has returned it. -/
structure Process where
  volumeID : String
  target : String
  stage : Stage
  preserveMountOnExit : Bool
  mountFD : Option Nat
  stopAsked : Bool
  registered : Bool
  returned : Bool
  deriving DecidableEq, Repr

/-- What has happened since an inventory was listed: the listing, and who
removed which volume from the mounts afterwards. -/
structure Window where
  listing : List MountEntry
  removed : List (Thread × String)

structure State where
  mounts : AList (fun _ : String => MountEntry)
  locks : KeyedLock String Thread
  takeover : Bool
  processes : List Process
  /-- Mount and unmount requests that found no takeover in progress and have not
  returned yet. -/
  active : List Thread
  /-- Inventories listed since the last release. -/
  windows : List Window

/-! ## Operations -/

/-- What `os.IsNotExist` and `mount.IsCorruptedMnt` tell apart. -/
inductive PathErrorKind where
  | notExist
  | corrupted
  | other
  deriving DecidableEq, Repr

structure PathError where
  kind : PathErrorKind
  text : String
  deriving DecidableEq, Repr

structure Command where
  command : String
  args : List String
  target : String
  volumeID : String
  extraFiles : List Nat
  deriving DecidableEq, Repr

inductive Probe where
  | getMount (volumeID : String)
  | signal0 (p : ProcessId)
  | kill (p : ProcessId)
  /-- One `select` on `p.done` and a timeout. -/
  | awaitDone (p : ProcessId)
  | preserveMountOnExit (p : ProcessId)
  | mountFD (p : ProcessId)
  | openFD (p : ProcessId) (fd : Nat)
  | discoverMountFD (p : ProcessId)
  | isLikelyNotMountPoint (path : String)
  | mkdirAll (path : String)
  | removeAll (path : String)
  | remove (path : String)
  /-- `os.Stat`, and whether the path is a directory. -/
  | stat (path : String)
  | stdoutPipe
  | stderrPipe
  | prepareHotRestart (localSocket : String)
  | cancelHotRestart (localSocket : String)
  | hotRestartStatus (localSocket : String)
  | deadlinePassed
  | sendFileDescriptor (socketPath : String) (file : Nat)
  deriving DecidableEq, Repr

@[reducible] def Probe.Value : Probe → Type
  | .getMount _ => Option MountEntry
  | .signal0 _ => Bool
  | .kill _ => Unit
  | .awaitDone _ => Bool
  | .preserveMountOnExit _ => Bool
  | .mountFD _ => Option Nat
  | .openFD _ _ => Except String Nat
  | .discoverMountFD _ => Except String Nat
  | .isLikelyNotMountPoint _ => Except PathError Bool
  | .mkdirAll _ => Except String Unit
  | .removeAll _ => Except String Unit
  | .remove _ => Except PathError Unit
  | .stat _ => Except PathError Bool
  | .stdoutPipe => Except String Unit
  | .stderrPipe => Except String Unit
  | .prepareHotRestart _ => Except String PrepareHotRestartResult
  | .cancelHotRestart _ => Except String Unit
  | .hotRestartStatus _ => Except String HotRestartStatus
  | .deadlinePassed => Bool
  | .sendFileDescriptor _ _ => Except String Unit

inductive Operation where
  | probe (q : Probe)
  | takeoverInProgress
  | setTakeoverInProgress (active : Bool)
  | listMounts
  | putMount (volumeID : String) (entry : MountEntry)
  | removeMount (volumeID : String)
  | detachMount (volumeID : String)
  | start (cmd : Command)
  | terminate (p : ProcessId)
  | setPreserveMountOnExit (p : ProcessId) (preserve : Bool)
  | recordMountFD (p : ProcessId) (fd : Nat)
  | unmountTarget (target : String)
  /-- `p.cmd.Wait`, which returns when the process has exited. -/
  | cmdWait (p : ProcessId)
  | closeDone (p : ProcessId)
  /-- The handler has returned. -/
  | reply (result : Except String Response)

@[reducible] def Operation.Value : Operation → Type
  | .probe q => q.Value
  | .takeoverInProgress => Bool
  | .setTakeoverInProgress _ => Unit
  | .listMounts => List MountEntry
  | .putMount _ _ => Unit
  | .removeMount _ => Unit
  | .detachMount _ => Unit
  | .start _ => Except String ProcessId
  | .terminate _ => Unit
  | .setPreserveMountOnExit _ _ => Unit
  | .recordMountFD _ _ => Unit
  | .unmountTarget _ => Except String Unit
  | .cmdWait _ => String × String
  | .closeDone _ => Unit
  | .reply _ => Unit

abbrev Request := LockRequest String Operation

abbrev Answer : Request → Type := LockRequest.Answer Operation.Value

/-- The requests a mount service is sent, in any order and any number, and how
many times a loop that waits for a deadline is unrolled. -/
structure Deployment where
  calls : Nat → Call
  weedBinary : String
  polls : Nat

def Call.client : Call → Bool
  | .mount _ => true
  | .unmount _ => true
  | _ => false

def Deployment.client (d : Deployment) : Thread → Bool
  | .request n => (d.calls n).client
  | .waiter _ => false

namespace State

/-- `m.mounts[volumeID]` -/
def mountOf (s : State) (volumeID : String) : Option MountEntry := s.mounts.lookup volumeID

def listing (s : State) : List MountEntry :=
  (s.mounts.keys.mergeSort (fun a b => decide (a ≤ b))).filterMap s.mountOf

def modifyProcess (s : State) (p : ProcessId) (f : Process → Process) : State :=
  { s with processes := s.processes.modify p f }

def eraseMount (s : State) (i : Thread) (volumeID : String) : State :=
  { s with
    mounts := s.mounts.erase volumeID
    windows := s.windows.map fun w => { w with removed := (i, volumeID) :: w.removed } }

/-- The answers a probe can get. What is outside the manager and its processes
may answer anything. -/
def Observes (s : State) : (q : Probe) → q.Value → Prop
  | .getMount volumeID, x => x = s.mountOf volumeID
  | .signal0 p, x => ∀ w, s.processes[p]? = some w →
      (w.stage = .running → x = true) ∧ (Stage.reaped.rank ≤ w.stage.rank → x = false)
  | .awaitDone p, x => x = true →
      ∃ w, s.processes[p]? = some w ∧ Stage.closed.rank ≤ w.stage.rank
  | .preserveMountOnExit p, x => s.processes[p]?.map (·.preserveMountOnExit) = some x
  | .mountFD p, x => s.processes[p]?.bind (·.mountFD) = x
  | _, _ => True

def Answers (s : State) : (o : Operation) → o.Value → Prop
  | .probe q, x => s.Observes q x
  | .takeoverInProgress, x => x = s.takeover
  | .listMounts, x => x = s.listing
  | .start _, x => ∀ p, x = .ok p → p = s.processes.length
  | .cmdWait p, x => ∃ w, s.processes[p]? = some w ∧ w.stage = .exited ∧ x = (w.target, w.volumeID)
  | _, _ => True

def after (d : Deployment) (i : Thread) : (o : Operation) → o.Value → State → State
  | .probe _, _, s => s
  | .takeoverInProgress, true, s => s
  | .takeoverInProgress, false, s => if d.client i then { s with active := i :: s.active } else s
  | .setTakeoverInProgress active, _, s =>
    { s with takeover := active, windows := if active then s.windows else [] }
  | .listMounts, x, s => { s with windows := ⟨x, []⟩ :: s.windows }
  | .putMount volumeID entry, _, s =>
    { s.modifyProcess entry.process (fun w => { w with registered := true }) with
      mounts := s.mounts.insert volumeID entry }
  | .removeMount volumeID, _, s =>
    { s.eraseMount i volumeID with locks := s.locks.delete volumeID }
  | .detachMount volumeID, _, s =>
    match i with
    | .request _ => s.eraseMount i volumeID
    | .waiter p => (s.eraseMount i volumeID).modifyProcess p (fun w => { w with stage := .finished })
  | .start cmd, .ok _, s =>
    { s with processes :=
        s.processes ++ [⟨cmd.volumeID, cmd.target, .running, false, none, false, false, false⟩] }
  | .start _, .error _, s => s
  | .terminate p, _, s => s.modifyProcess p (fun w => { w with stopAsked := true })
  | .setPreserveMountOnExit p preserve, _, s =>
    s.modifyProcess p (fun w => { w with preserveMountOnExit := preserve })
  | .recordMountFD p fd, _, s => s.modifyProcess p (fun w => { w with mountFD := some fd })
  | .unmountTarget _, _, s => s
  | .cmdWait p, _, s => s.modifyProcess p (fun w => { w with stage := .reaped })
  | .closeDone p, _, s => s.modifyProcess p (fun w => { w with stage := .closed })
  | .reply (.ok (.mounted _ p)), _, s =>
    { s.modifyProcess p (fun w => { w with returned := true }) with
      active := s.active.filter (· ≠ i) }
  | .reply _, _, s => { s with active := s.active.filter (· ≠ i) }

def Performs (d : Deployment) (i : Thread) : (r : Request) → State → Answer r → State → Prop
  | .get k, s, m, s' => m = s.locks.mutexOf k ∧ s' = { s with locks := s.locks.get i k }
  | .lock k m, s, _, s' => s.locks.locked m = false ∧ s' = { s with locks := s.locks.lock i k m }
  | .unlock k m, s, _, s' => s' = { s with locks := s.locks.unlock i k m }
  | .own o, s, x, s' => s.Answers o x ∧ s' = s.after d i o x

/-- A process exits, asked to or not. -/
def Exits (s s' : State) : Prop :=
  ∃ p w, s.processes[p]? = some w ∧ w.stage = .running ∧
    s' = s.modifyProcess p (fun w => { w with stage := .exited })

def initial : State := ⟨∅, .empty, false, [], [], []⟩

end State

def system (d : Deployment) : System Thread Request Answer State where
  performs := State.Performs d
  env := State.Exits

end ClusterState.MountManager
