import ClusterState.MountManager.State

/-! # The handlers of the mount service

`Manager.Mount`, `Unmount` and the steps of a takeover, and the goroutine `wait`
of a worker, as programs over the operations of the manager.
-/

namespace ClusterState.MountManager

open Concurrency

abbrev Api := Program Request Answer String

def perform (o : Operation) : Api o.Value := .ask (.own o) .done

def observe (q : Probe) : Api q.Value := perform (.probe q)

def orThrow {α : Type} (wrap : String → String) : Except String α → Api α
  | .ok a => pure a
  | .error err => throw (wrap err)

def require (ok : Prop) [Decidable ok] (err : String) : Api Unit :=
  if ok then pure () else throw err

def errTakeoverInProgress : String := "mount service takeover in progress"

def validateMountRequest (req : MountRequest) : Except String Unit :=
  if req.volumeID = "" then .error "volumeId is required"
  else if req.targetPath = "" then .error "targetPath is required"
  else if req.cacheDir = "" then .error "cacheDir is required"
  else if req.localSocket = "" then .error "localSocket is required"
  else if req.mountArgs = [] then .error "mountArgs is required"
  else .ok ()

def takeoverMountFromEntry (entry : MountEntry) : TakeoverMount where
  volumeID := entry.volumeID
  targetPath := entry.targetPath
  cacheDir := entry.cacheDir
  mountArgs := entry.mountArgs
  localSocket := entry.localSocket

/-! ## Worker processes -/

/-- `weedMountProcess.stop` -/
def stop (p : ProcessId) : Api Unit := do
  perform (.terminate p)
  if ← observe (.awaitDone p) then pure ()
  else
    observe (.kill p)
    if ← observe (.awaitDone p) then pure ()
    else throw "timed out waiting for weed mount to stop"

/-- `weedMountProcess.wait`, with the callback that `Mount` and
`importTakeoverMount` give it. -/
def wait (p : ProcessId) : Api Unit := do
  let (target, volumeID) ← perform (.cmdWait p)
  if ← observe (.preserveMountOnExit p) then pure ()
  else
    let _ ← perform (.unmountTarget target)
  perform (.closeDone p)
  perform (.detachMount volumeID)

/-- `weedMountProcess.dupMountFD` -/
def dupMountFD (p : ProcessId) : Api Nat := do
  match ← observe (.mountFD p) with
  | none => throw ("weed mount process " ++ toString p ++ " has no recorded FUSE fd")
  | some fd =>
    let file ← observe (.openFD p fd)
    orThrow (("open duplicated FUSE fd /proc/" ++ toString p ++ "/fd/" ++ toString fd ++ ": ") ++ ·)
      file

/-- A poll every 10 ms for 10 s. -/
def waitForMount (path : String) : Nat → Api Unit
  | 0 => throw "timeout waiting for mount"
  | left + 1 => do
    match ← observe (.isLikelyNotMountPoint path) with
    | .error err => throw err.text
    | .ok false => pure ()
    | .ok true => waitForMount path left

def waitForWorkerSocket (localSocket : String) : Nat → Api Unit
  | 0 => .halt
  | left + 1 => do
    match ← observe (.hotRestartStatus localSocket) with
    | .ok _ => pure ()
    | .error err =>
      if ← observe .deadlinePassed then
        throw ("timeout waiting for adopted worker socket " ++ localSocket ++ ": " ++ err)
      else waitForWorkerSocket localSocket left

def startWeedMountProcessWithOptions (cmd : Command) (ready : Api Unit) : Api ProcessId := do
  orThrow ("creating stdout pipe: " ++ ·) (← observe .stdoutPipe)
  orThrow ("creating stderr pipe: " ++ ·) (← observe .stderrPipe)
  let process ← orThrow ("starting weed mount: " ++ ·) (← perform (.start cmd))
  match ← ready.attempt with
  | .error err =>
    let _ ← (stop process).attempt
    throw err
  | .ok () =>
    match ← observe (.discoverMountFD process) with
    | .error _ => pure process
    | .ok fd =>
      perform (.recordMountFD process fd)
      pure process

/-! ## Mounting -/

def ensureTargetClean (targetPath : String) : Api Unit := do
  match ← observe (.isLikelyNotMountPoint targetPath) with
  | .error err =>
    match err.kind with
    | .notExist => pure ()
    | .corrupted =>
      orThrow (("failed to unmount corrupted mount " ++ targetPath ++ ": ") ++ ·)
        (← perform (.unmountTarget targetPath))
    | .other => throw err.text
  | .ok true => pure ()
  | .ok false =>
    orThrow (("failed to unmount existing mount " ++ targetPath ++ ": ") ++ ·)
      (← perform (.unmountTarget targetPath))
  orThrow id (← observe (.mkdirAll targetPath))

def startMount (d : Deployment) (req : MountRequest) : Api MountEntry := do
  ensureTargetClean req.targetPath
  require (req.cacheDir ≠ "") "cacheDir is required"
  orThrow ("creating cache dir: " ++ ·) (← observe (.mkdirAll req.cacheDir))
  require (req.localSocket ≠ "") "localSocket is required"
  require (req.mountArgs ≠ []) "mountArgs is required"
  let process ← startWeedMountProcessWithOptions
    ⟨d.weedBinary, req.mountArgs, req.targetPath, req.volumeID, []⟩
    (waitForMount req.targetPath 1000)
  pure ⟨req.volumeID, req.targetPath, req.cacheDir, req.mountArgs, req.localSocket, process⟩

def mountNew (d : Deployment) (req : MountRequest) : Api Response := do
  let entry ← startMount d req
  perform (.putMount req.volumeID entry)
  pure (.mounted entry.localSocket entry.process)

def mountLocked (d : Deployment) (req : MountRequest) : Api Response := do
  match ← observe (.getMount req.volumeID) with
  | none => mountNew d req
  | some entry =>
    if entry.targetPath ≠ req.targetPath then
      throw ("volume " ++ req.volumeID ++ " already mounted at " ++ entry.targetPath)
    else if ← observe (.signal0 entry.process) then
      pure (.mounted entry.localSocket entry.process)
    else
      perform (.detachMount req.volumeID)
      mountNew d req

def mount (d : Deployment) (req : Option MountRequest) : Api Response := do
  if ← perform .takeoverInProgress then throw errTakeoverInProgress
  else
    match req with
    | none => throw "mount request is nil"
    | some req =>
      Program.ofExcept (validateMountRequest req)
      withLock req.volumeID (mountLocked d req)

def unmountLocked (req : UnmountRequest) : Api Response := do
  match ← observe (.getMount req.volumeID) with
  | none => pure .unmounted
  | some entry =>
    stop entry.process
    let _ ← observe (.removeAll entry.cacheDir)
    perform (.removeMount req.volumeID)
    pure .unmounted

def unmount (req : Option UnmountRequest) : Api Response := do
  if ← perform .takeoverInProgress then throw errTakeoverInProgress
  else
    match req with
    | none => throw "unmount request is nil"
    | some req =>
      if req.volumeID = "" then throw "volumeId is required"
      else withLock req.volumeID (unmountLocked req)

/-! ## Handing over -/

def takeoverInventory (req : Option Unit) : Api Response := do
  match req with
  | none => throw "takeover inventory request is nil"
  | some _ =>
    perform (.setTakeoverInProgress true)
    let entries ← perform .listMounts
    pure (.inventory (entries.map takeoverMountFromEntry))

def notMounted (volumeID : String) : String := "volume " ++ volumeID ++ " is not mounted"

def cancelLocked (req : TakeoverVolumeRequest) : Api Response := do
  match ← observe (.getMount req.volumeID) with
  | none => throw (notMounted req.volumeID)
  | some entry =>
    orThrow (("cancel hot restart for volume " ++ req.volumeID ++ ": ") ++ ·)
      (← observe (.cancelHotRestart entry.localSocket))
    perform (.setPreserveMountOnExit entry.process false)
    pure .cancelled

def cancelTakeover (req : Option TakeoverVolumeRequest) : Api Response :=
  match req with
  | none => throw "takeover cancel request is nil"
  | some req =>
    if req.volumeID = "" then throw "volumeId is required"
    else withLock req.volumeID (cancelLocked req)

/-- The descriptor could not be handed over. The cancellation takes the lock of
the volume, which the caller holds. -/
def exportFailed (volumeID err : String) : Api Response := do
  let _ ← (cancelTakeover (some ⟨volumeID⟩)).attempt
  throw err

def exportLocked (req : TakeoverExportRequest) : Api Response := do
  match ← observe (.getMount req.volumeID) with
  | none => throw (notMounted req.volumeID)
  | some entry =>
    let prepare ← orThrow (("prepare hot restart for volume " ++ req.volumeID ++ ": ") ++ ·)
      (← observe (.prepareHotRestart entry.localSocket))
    if prepare.accepted = false then
      pure (.exported ⟨false, none, some prepare.status⟩)
    else
      match ← (dupMountFD entry.process).attempt with
      | .error err =>
        exportFailed req.volumeID
          ("duplicate live FUSE fd for volume " ++ req.volumeID ++ ": " ++ err)
      | .ok fdFile =>
        match ← observe (.sendFileDescriptor req.handoffSocket fdFile) with
        | .error err =>
          exportFailed req.volumeID ("send live FUSE fd for volume " ++ req.volumeID ++ ": " ++ err)
        | .ok () =>
          pure (.exported ⟨true, some (takeoverMountFromEntry entry), some prepare.status⟩)

def exportTakeover (req : Option TakeoverExportRequest) : Api Response :=
  match req with
  | none => throw "takeover export request is nil"
  | some req =>
    if req.volumeID = "" then throw "volumeId is required"
    else if req.handoffSocket = "" then throw "handoffSocket is required"
    else withLock req.volumeID (exportLocked req)

def finalizeLocked (req : TakeoverVolumeRequest) : Api Response := do
  match ← observe (.getMount req.volumeID) with
  | none => throw (notMounted req.volumeID)
  | some entry =>
    perform (.setPreserveMountOnExit entry.process true)
    match ← (stop entry.process).attempt with
    | .error err =>
      perform (.setPreserveMountOnExit entry.process false)
      throw ("stop old worker for volume " ++ req.volumeID ++ ": " ++ err)
    | .ok () =>
      perform (.removeMount req.volumeID)
      pure .finalized

def finalizeTakeover (req : Option TakeoverVolumeRequest) : Api Response :=
  match req with
  | none => throw "takeover finalize request is nil"
  | some req =>
    if req.volumeID = "" then throw "volumeId is required"
    else withLock req.volumeID (finalizeLocked req)

def releaseTakeover (req : Option Unit) : Api Response := do
  match req with
  | none => throw "takeover release request is nil"
  | some _ =>
    perform (.setTakeoverInProgress false)
    pure .released

/-! ## Taking over -/

def ensureTakeoverTargetPath (targetPath : String) : Api Unit := do
  match ← observe (.isLikelyNotMountPoint targetPath) with
  | .error err =>
    match err.kind with
    | .notExist => orThrow id (← observe (.mkdirAll targetPath))
    | .corrupted =>
      orThrow (("unmount corrupted takeover target path " ++ targetPath ++ ": ") ++ ·)
        (← perform (.unmountTarget targetPath))
      orThrow id (← observe (.mkdirAll targetPath))
    | .other => throw err.text
  | .ok false => pure ()
  | .ok true =>
    match ← observe (.stat targetPath) with
    | .ok true => pure ()
    | .ok false => throw ("target path " ++ targetPath ++ " exists and is not a directory")
    | .error err =>
      match err.kind with
      | .notExist => orThrow id (← observe (.mkdirAll targetPath))
      | _ => throw err.text

def importLocked (d : Deployment) (mount : TakeoverMount) (fdFile : Nat) : Api Response := do
  match ← (ensureTakeoverTargetPath mount.targetPath).attempt with
  | .error err =>
    throw ("prepare takeover target path for volume " ++ mount.volumeID ++ ": " ++ err)
  | .ok () =>
    match ← observe (.remove mount.localSocket) with
    | .error ⟨.corrupted, err⟩ | .error ⟨.other, err⟩ =>
      throw ("remove stale local socket for volume " ++ mount.volumeID ++ ": " ++ err)
    | .error ⟨.notExist, _⟩ | .ok () =>
      let args := mount.mountArgs ++
        ["-dirAutoCreate=true", "-hotRestart.mountFd=3", "-hotRestart.adoptLiveFd=true"]
      let started ← (startWeedMountProcessWithOptions
        ⟨d.weedBinary, args, mount.targetPath, mount.volumeID, [fdFile]⟩
        (waitForWorkerSocket mount.localSocket d.polls)).attempt
      let process ← orThrow (("start adopted worker for volume " ++ mount.volumeID ++ ": ") ++ ·)
        started
      perform (.putMount mount.volumeID ⟨mount.volumeID, mount.targetPath, mount.cacheDir,
        mount.mountArgs, mount.localSocket, process⟩)
      pure .imported

def importTakeoverMount (d : Deployment) (mount : TakeoverMount) (fdFile : Nat) : Api Response :=
  withLock mount.volumeID (importLocked d mount fdFile)

/-! ## Threads -/

def handle (d : Deployment) : Call → Api Response
  | .mount req => mount d req
  | .unmount req => unmount req
  | .takeoverInventory req => takeoverInventory req
  | .exportTakeover req => exportTakeover req
  | .finalizeTakeover req => finalizeTakeover req
  | .cancelTakeover req => cancelTakeover req
  | .releaseTakeover req => releaseTakeover req
  | .importTakeoverMount mount fdFile => importTakeoverMount d mount fdFile

def serve (d : Deployment) (call : Call) : Api Unit := do
  let result ← (handle d call).attempt
  perform (.reply result)

def Deployment.program (d : Deployment) : Thread → Api Unit
  | .request n => serve d (d.calls n)
  | .waiter p => wait p

abbrev Run := Config Thread Request Answer String Unit State

def Deployment.start (d : Deployment) : Run := ⟨d.program, .initial⟩

end ClusterState.MountManager
