import ClusterState.Concurrency.KeyedLock

/-! # The node service of the CSI driver

`NodeServer` keeps the volumes it has staged in memory and serves the requests
for one volume under a lock of that volume. What it calls outside, the mount
service and the host's mount table, may answer anything.
-/

namespace ClusterState.NodeServer

open Concurrency

/-- The gRPC status codes the node service returns; `unknown` is that of an
error without a status. -/
inductive Code where
  | invalidArgument
  | permissionDenied
  | internal
  | unknown
  deriving DecidableEq, Repr

structure Status where
  code : Code
  message : String
  deriving DecidableEq, Repr

inductive AccessMode where
  | unknown
  | singleNodeWriter
  | singleNodeReaderOnly
  | multiNodeReaderOnly
  | multiNodeSingleWriter
  | multiNodeMultiWriter
  | singleNodeSingleWriter
  | singleNodeMultiWriter
  deriving DecidableEq, Repr

structure VolumeCapability where
  accessMode : Option AccessMode
  mount : Option String
  deriving DecidableEq, Repr

abbrev VolumeContext := AList (fun _ : String => String)

structure NodeStageVolumeRequest where
  volumeId : String
  stagingTargetPath : String
  volumeCapability : Option VolumeCapability
  volumeContext : VolumeContext

structure NodePublishVolumeRequest where
  volumeId : String
  targetPath : String
  stagingTargetPath : String
  volumeCapability : Option VolumeCapability
  readonly : Bool
  volumeContext : VolumeContext

structure NodeUnpublishVolumeRequest where
  volumeId : String
  targetPath : String

structure NodeUnstageVolumeRequest where
  volumeId : String
  stagingTargetPath : String

structure NodeExpandVolumeRequest where
  volumeId : String
  volumePath : String
  requiredBytes : Int

/-- A staged volume. One that was rebuilt from an existing mount has no
unmounter. -/
structure Volume where
  volumeId : String
  stagedPath : String
  unmounter : Bool
  deriving DecidableEq, Repr

/-- An error of staging, and whether it is a permission error. -/
structure StageError where
  permission : Bool
  text : String
  deriving DecidableEq, Repr

inductive Operation where
  | load (volumeID : String)
  | store (volumeID : String) (volume : Volume)
  | delete (volumeID : String)
  | removeVolumeMutex (volumeID : String)
  | isStagingPathHealthy (stagingPath : String)
  /-- `os.Stat` finds the path, or a corrupted mount. -/
  | statStale (stagingPath : String)
  | cleanupStaleStagingPath (stagingPath : String)
  | newMounter (volumeID : String) (readOnly : Bool) (volContext : VolumeContext)
  | stage (volumeID stagingTargetPath : String)
  | applyMountRootOwnership (volumeID : String) (volContext : VolumeContext)
  | applyMountRootOwnershipKernel (stagingTargetPath : String) (volContext : VolumeContext)
  | unstage (volume : Volume) (stagingTargetPath : String)
  | getVolumeCapacity (volumeID : String)
  | quota (volume : Volume) (sizeByte : Int)
  | publish (stagingTargetPath targetPath : String) (readOnly : Bool)
  | unpublish (targetPath : String)
  | cleanupMountPoint (path : String)
  | delegateUnmountToService (volumeID : String)

@[reducible] def Operation.Value : Operation → Type
  | .load _ => Option Volume
  | .store _ _ => Unit
  | .delete _ => Unit
  | .removeVolumeMutex _ => Unit
  | .isStagingPathHealthy _ => Bool
  | .statStale _ => Bool
  | .cleanupStaleStagingPath _ => Except String Unit
  | .newMounter _ _ _ => Except StageError Unit
  | .stage _ _ => Except StageError Unit
  | .applyMountRootOwnership _ _ => Except String Unit
  | .applyMountRootOwnershipKernel _ _ => Except String Unit
  | .unstage _ _ => Except String Unit
  | .getVolumeCapacity _ => Except String Int
  | .quota _ _ => Except String Unit
  | .publish _ _ _ => Except String Unit
  | .unpublish _ => Except String Unit
  | .cleanupMountPoint _ => Except String Unit
  | .delegateUnmountToService _ => Except String Unit

abbrev Request := LockRequest String Operation

abbrev Answer : Request → Type := LockRequest.Answer Operation.Value

abbrev Api := Program Request Answer Status

def perform (o : Operation) : Api o.Value := .ask (.own o) .done

def require (ok : Prop) [Decidable ok] (code : Code) (message : String) : Api Unit :=
  if ok then pure () else throw ⟨code, message⟩

/-! ## Staging -/

def isReadOnlyAccessMode : AccessMode → Bool
  | .singleNodeReaderOnly => true
  | .multiNodeReaderOnly => true
  | _ => false

def isVolumeReadOnly (req : NodeStageVolumeRequest) : Bool :=
  ((req.volumeCapability.bind (·.accessMode)).map isReadOnlyAccessMode).getD false

def isPublishVolumeReadOnly (req : NodePublishVolumeRequest) : Bool :=
  req.readonly || ((req.volumeCapability.bind (·.accessMode)).map isReadOnlyAccessMode).getD false

def insertMissing (key value : String) (volContext : VolumeContext) : VolumeContext :=
  if key ∈ volContext then volContext else volContext.insert key value

def injectVolumeMountGroup (cap : Option VolumeCapability) (volContext : VolumeContext) :
    VolumeContext :=
  match cap.bind (·.mount) with
  | none => volContext
  | some mountGroup =>
    if mountGroup = "" then volContext
    else insertMissing "mountRootGid" mountGroup
      (insertMissing "gidMap" (mountGroup ++ ":0") volContext)

def rebuildVolumeFromStaging (volumeID stagingPath : String) : Volume := ⟨volumeID, stagingPath, false⟩

def unstageFailed (volume : Volume) (text : String) : Api (Except StageError Volume) := do
  let _ ← perform (.unstage volume volume.stagedPath)
  pure (.error ⟨false, text⟩)

/-- The end of `stageNewVolume`: the quota, if there is one. -/
def applyQuota (volume : Volume) : Api (Except StageError Volume) := do
  match ← perform (.getVolumeCapacity volume.volumeId) with
  | .error _ => pure (.ok volume)
  | .ok capacity =>
    match ← perform (.quota volume capacity) with
    | .error err => unstageFailed volume err
    | .ok () => pure (.ok volume)

/-- `stageNewVolume` after the staging itself. -/
def finishStaging (volume : Volume) (volContext : VolumeContext) (readOnly : Bool) :
    Api (Except StageError Volume) := do
  if readOnly then applyQuota volume
  else
    match ← perform (.applyMountRootOwnership volume.volumeId volContext) with
    | .error err =>
      unstageFailed volume ("apply mount-root ownership for " ++ volume.volumeId ++ ": " ++ err)
    | .ok () =>
      match ← perform (.applyMountRootOwnershipKernel volume.stagedPath volContext) with
      | .error err =>
        unstageFailed volume
          ("apply mount-root ownership (kernel) for " ++ volume.volumeId ++ ": " ++ err)
      | .ok () => applyQuota volume

def stageNewVolume (volumeID stagingTargetPath : String) (volContext : VolumeContext)
    (readOnly : Bool) : Api (Except StageError Volume) := do
  match ← perform (.newMounter volumeID readOnly volContext) with
  | .error err => pure (.error err)
  | .ok () =>
    match ← perform (.stage volumeID stagingTargetPath) with
    | .error err => pure (.error err)
    | .ok () => finishStaging ⟨volumeID, stagingTargetPath, true⟩ volContext readOnly

def stageStatus (err : StageError) : Status :=
  if err.permission then ⟨.permissionDenied, err.text⟩
  else if (err.text.splitOn "invalid argument").length ≠ 1 then ⟨.invalidArgument, err.text⟩
  else ⟨.internal, err.text⟩

def cleanupFailed (stagingTargetPath err : String) : String :=
  "failed to cleanup stale staging path " ++ stagingTargetPath ++ ": " ++ err

/-- Errors of `NodeStageVolume` and `NodePublishVolume` under the lock drop the
volume's mutex first. -/
def dropMutex {α : Type} (volumeID : String) (status : Status) : Api α := do
  perform (.removeVolumeMutex volumeID)
  throw status

/-- `NodeStageVolume` from `stageNewVolume` on. -/
def stageFresh (req : NodeStageVolumeRequest) : Api Unit := do
  let volContext := injectVolumeMountGroup req.volumeCapability req.volumeContext
  match ← stageNewVolume req.volumeId req.stagingTargetPath volContext (isVolumeReadOnly req) with
  | .error err => dropMutex req.volumeId (stageStatus err)
  | .ok volume => perform (.store req.volumeId volume)

def stageLocked (req : NodeStageVolumeRequest) : Api Unit := do
  match ← perform (.load req.volumeId) with
  | some _ => pure ()
  | none =>
    if ← perform (.isStagingPathHealthy req.stagingTargetPath) then
      perform (.store req.volumeId (rebuildVolumeFromStaging req.volumeId req.stagingTargetPath))
    else if ← perform (.statStale req.stagingTargetPath) then
      match ← perform (.cleanupStaleStagingPath req.stagingTargetPath) with
      | .error err =>
        dropMutex req.volumeId ⟨.internal, cleanupFailed req.stagingTargetPath err⟩
      | .ok () => stageFresh req
    else stageFresh req

def nodeStageVolume (req : NodeStageVolumeRequest) : Api Unit := do
  require (req.volumeCapability.isSome = true) .invalidArgument
    "Volume capability missing in request"
  require (req.volumeId ≠ "") .invalidArgument "Volume ID missing in request"
  require (req.stagingTargetPath ≠ "") .invalidArgument "Target path missing in request"
  withLock req.volumeId (stageLocked req)

/-! ## Publishing -/

/-- The volume to publish, re-staged when the staging path is not healthy. -/
def selfHeal (req : NodePublishVolumeRequest) : Api Unit := do
  if ← perform (.isStagingPathHealthy req.stagingTargetPath) then
    perform (.store req.volumeId (rebuildVolumeFromStaging req.volumeId req.stagingTargetPath))
  else
    match ← perform (.cleanupStaleStagingPath req.stagingTargetPath) with
    | .error err => dropMutex req.volumeId ⟨.internal, cleanupFailed req.stagingTargetPath err⟩
    | .ok () =>
      let volContext := injectVolumeMountGroup req.volumeCapability req.volumeContext
      match ← stageNewVolume req.volumeId req.stagingTargetPath volContext
          (isPublishVolumeReadOnly req) with
      | .error err => dropMutex req.volumeId ⟨.internal, "failed to re-stage volume: " ++ err.text⟩
      | .ok volume => perform (.store req.volumeId volume)

def internal (err : String) : Status := ⟨.internal, err⟩

/-- The end of `NodePublishVolume`: the bind mount. -/
def publishStaged (req : NodePublishVolumeRequest) : Api Unit := do
  match ← perform (.publish req.stagingTargetPath req.targetPath req.readonly) with
  | .error err => throw (internal err)
  | .ok () => pure ()

def publishLocked (req : NodePublishVolumeRequest) : Api Unit := do
  match ← perform (.load req.volumeId) with
  | some _ =>
    if ← perform (.isStagingPathHealthy req.stagingTargetPath) then publishStaged req
    else
      perform (.delete req.volumeId)
      selfHeal req
      publishStaged req
  | none =>
    selfHeal req
    publishStaged req

def nodePublishVolume (req : NodePublishVolumeRequest) : Api Unit := do
  require (req.volumeCapability.isSome = true) .invalidArgument
    "Volume capability missing in request"
  require (req.volumeId ≠ "") .invalidArgument "Volume ID missing in request"
  require (req.targetPath ≠ "") .invalidArgument "Target path missing in request"
  require (req.stagingTargetPath ≠ "") .invalidArgument "Staging target path missing in request"
  withLock req.volumeId (publishLocked req)

def unpublishLocked (req : NodeUnpublishVolumeRequest) : Api Unit := do
  match ← perform (.load req.volumeId) with
  | none =>
    let _ ← perform (.cleanupMountPoint req.targetPath)
  | some _ =>
    match ← perform (.unpublish req.targetPath) with
    | .error err => throw (internal err)
    | .ok () => pure ()

def nodeUnpublishVolume (req : NodeUnpublishVolumeRequest) : Api Unit := do
  require (req.volumeId ≠ "") .invalidArgument "Volume ID missing in request"
  require (req.targetPath ≠ "") .invalidArgument "Target path missing in request"
  withLock req.volumeId (unpublishLocked req)

/-! ## Unstaging and expanding -/

def unstageLocked (req : NodeUnstageVolumeRequest) : Api Unit := do
  match ← perform (.load req.volumeId) with
  | none =>
    let _ ← perform (.cleanupMountPoint req.stagingTargetPath)
    let _ ← perform (.delegateUnmountToService req.volumeId)
    perform (.removeVolumeMutex req.volumeId)
  | some volume =>
    match ← perform (.unstage volume req.stagingTargetPath) with
    | .error err => throw (internal err)
    | .ok () =>
      perform (.delete req.volumeId)
      perform (.removeVolumeMutex req.volumeId)

def nodeUnstageVolume (req : NodeUnstageVolumeRequest) : Api Unit := do
  require (req.volumeId ≠ "") .invalidArgument "Volume ID missing in request"
  require (req.stagingTargetPath ≠ "") .invalidArgument "Target path missing in request"
  withLock req.volumeId (unstageLocked req)

def expandLocked (req : NodeExpandVolumeRequest) : Api Unit := do
  match ← perform (.load req.volumeId) with
  | none => pure ()
  | some volume =>
    match ← perform (.quota volume req.requiredBytes) with
    | .error err => throw ⟨.unknown, err⟩
    | .ok () => pure ()

def nodeExpandVolume (req : NodeExpandVolumeRequest) : Api Unit := do
  require (req.volumeId ≠ "") .invalidArgument "Volume ID missing in request"
  require (req.volumePath ≠ "") .invalidArgument "Volume path missing in request"
  withLock req.volumeId (expandLocked req)

/-! ## The service -/

inductive Call where
  | nodeStageVolume (req : NodeStageVolumeRequest)
  | nodePublishVolume (req : NodePublishVolumeRequest)
  | nodeUnpublishVolume (req : NodeUnpublishVolumeRequest)
  | nodeUnstageVolume (req : NodeUnstageVolumeRequest)
  | nodeExpandVolume (req : NodeExpandVolumeRequest)

def serve : Call → Api Unit
  | .nodeStageVolume req => nodeStageVolume req
  | .nodePublishVolume req => nodePublishVolume req
  | .nodeUnpublishVolume req => nodeUnpublishVolume req
  | .nodeUnstageVolume req => nodeUnstageVolume req
  | .nodeExpandVolume req => nodeExpandVolume req

abbrev Thread := Nat

structure State where
  volumes : AList (fun _ : String => Volume)
  locks : KeyedLock String Thread

namespace State

/-- What is outside the service may answer anything. -/
def Answers (s : State) : (o : Operation) → o.Value → Prop
  | .load volumeID, x => x = s.volumes.lookup volumeID
  | _, _ => True

def after : Operation → State → State
  | .store volumeID volume, s => { s with volumes := s.volumes.insert volumeID volume }
  | .delete volumeID, s => { s with volumes := s.volumes.erase volumeID }
  | .removeVolumeMutex volumeID, s => { s with locks := s.locks.delete volumeID }
  | _, s => s

def Performs (i : Thread) : (r : Request) → State → Answer r → State → Prop
  | .get k, s, m, s' => m = s.locks.mutexOf k ∧ s' = { s with locks := s.locks.get i k }
  | .lock k m, s, _, s' => s.locks.locked m = false ∧ s' = { s with locks := s.locks.lock i k m }
  | .unlock k m, s, _, s' => s' = { s with locks := s.locks.unlock i k m }
  | .own o, s, x, s' => s.Answers o x ∧ s' = s.after o

def initial : State := ⟨∅, .empty⟩

end State

def system : System Thread Request Answer State where
  performs := State.Performs
  env _ _ := False

abbrev Run := Config Thread Request Answer Status Unit State

def start (calls : Thread → Call) : Run := ⟨fun i => serve (calls i), .initial⟩

end ClusterState.NodeServer
