import ClusterState.Concurrency.Sessions
import ClusterState.MountManager.Soundness
import ClusterState.NodeServer.Server

/-! # The node service and the mount service side by side

`csi-node` serves the calls for a volume one after the other and may restart at
any point, which loses its volumes. The mount service keeps running: a request
that `csi-node` has sent is served in a goroutine of its own, whether or not
`csi-node` still waits for the answer.
-/

namespace ClusterState.NodeServer

open Concurrency

/-- Where the resources of a volume are: `GetCacheDir` and `GetLocalSocket`. -/
structure Driver where
  getCacheDir : String → String
  getLocalSocket : String → String

/-- What `csi-node` does, with staging and unstaging taken apart. -/
inductive Action where
  | node (o : Operation)
  | newClient
  | checkMount (targetPath : String)
  | unmountPath (path : String)
  | buildMountArgs (volumeID targetPath : String)
  | send (call : MountManager.Call)
  | await (n : Nat)
  | removePath (path : String)
  /-- `mount.CleanupMountPoint` for a volume without an unmounter. -/
  | forceUnmount (volumeID path : String)
  /-- The warning that the error of a delegated unmount is passed over. -/
  | delegatedUnmountFailed (volumeID err : String)
  | removeCacheDir (volumeID path : String)
  | removeLocalSocket (volumeID path : String)
  /-- The call has returned. -/
  | reply (call : Call) (result : Except Status Unit)

@[reducible] def Action.Value : Action → Type
  | .node o => o.Value
  | .newClient => Except String Unit
  | .checkMount _ => Except StageError Bool
  | .unmountPath _ => Except String Unit
  | .buildMountArgs _ _ => Except StageError (List String)
  | .send _ => Except String Nat
  | .await _ => Except String MountManager.Response
  | .removePath _ => Except String Unit
  | .forceUnmount _ _ => Except String Unit
  | .delegatedUnmountFailed _ _ => Unit
  | .removeCacheDir _ _ => Except String Unit
  | .removeLocalSocket _ _ => Except String Unit
  | .reply _ _ => Unit

abbrev Csi := Program Action Action.Value Status

def act (a : Action) : Csi a.Value := .ask a .done

/-! ## Talking to the mount service -/

/-- `Client.doPost`. A request that could not be sent is never served; one that
was sent may be served after the client has given up on it. -/
def doPost (call : MountManager.Call) : Csi (Except String MountManager.Response) := do
  match ← act (.send call) with
  | .error err => pure (.error err)
  | .ok n => act (.await n)

/-- `mountServiceMounter.Mount` -/
def mounterMount (driver : Driver) (volumeID target : String) : Csi (Except StageError Unit) := do
  if target = "" then pure (.error ⟨false, "target path is required"⟩)
  else
    match ← act (.buildMountArgs volumeID target) with
    | .error err => pure (.error err)
    | .ok args =>
      match ← doPost (.mount (some ⟨volumeID, target, driver.getCacheDir volumeID, args,
          driver.getLocalSocket volumeID⟩)) with
      | .error err => pure (.error ⟨false, err⟩)
      | .ok _ => pure (.ok ())

/-- `mountServiceUnmounter.Unmount` -/
def unmounterUnmount (volumeID : String) : Csi (Except String MountManager.Response) :=
  doPost (.unmount (some ⟨volumeID⟩))

/-- `Volume.Stage` -/
def volumeStage (driver : Driver) (volumeID stagingTargetPath : String) :
    Csi (Except StageError Unit) := do
  match ← act (.checkMount stagingTargetPath) with
  | .error err => pure (.error err)
  | .ok true =>
    let _ ← act (.unmountPath stagingTargetPath)
    mounterMount driver volumeID stagingTargetPath
  | .ok false => mounterMount driver volumeID stagingTargetPath

/-- `CleanupVolumeResources`: failures are logged. -/
def cleanupVolumeResources (driver : Driver) (volumeID : String) : Csi (Except String Unit) := do
  let _ ← act (.removeCacheDir volumeID (driver.getCacheDir volumeID))
  let _ ← act (.removeLocalSocket volumeID (driver.getLocalSocket volumeID))
  pure (.ok ())

/-- `Volume.Unstage` -/
def volumeUnstage (driver : Driver) (volume : Volume) (stagingTargetPath : String) :
    Csi (Except String Unit) := do
  if volume.unmounter then
    match ← unmounterUnmount volume.volumeId with
    | .error err => pure (.error err)
    | .ok _ =>
      match ← act (.removePath stagingTargetPath) with
      | .error err => pure (.error err)
      | .ok () => cleanupVolumeResources driver volume.volumeId
  else
    match ← act (.forceUnmount volume.volumeId stagingTargetPath) with
    | .error err => pure (.error err)
    | .ok () => cleanupVolumeResources driver volume.volumeId

/-- `delegateUnmountToService`, and the warning about its error. -/
def delegateUnmount (volumeID : String) : Csi (Except String Unit) := do
  match ← act .newClient with
  | .error err =>
    act (.delegatedUnmountFailed volumeID err)
    pure (.error err)
  | .ok () =>
    match ← doPost (.unmount (some ⟨volumeID⟩)) with
    | .error err =>
      act (.delegatedUnmountFailed volumeID err)
      pure (.error err)
    | .ok _ => pure (.ok ())

/-- How a request of a handler is carried out. Calls come one after the other, so
their locks are free. -/
def carryOut (driver : Driver) : (r : Request) → Csi (Answer r)
  | .get _ => .done (0 : Nat)
  | .lock _ _ => .done ()
  | .unlock _ _ => .done ()
  | .own (.stage volumeID stagingTargetPath) => volumeStage driver volumeID stagingTargetPath
  | .own (.unstage volume stagingTargetPath) => volumeUnstage driver volume stagingTargetPath
  | .own (.delegateUnmountToService volumeID) => delegateUnmount volumeID
  | .own o => act (.node o)

def serveCall (driver : Driver) (call : Call) : Csi Unit := do
  let result ← ((serve call).interp (carryOut driver)).attempt
  act (.reply call result)

/-! ## Both daemons -/

/-- The volumes of `csi-node`, the run of the mount service, the requests it was
sent, and its answers, the last one first. -/
structure Daemons where
  volumes : AList (fun _ : String => Volume)
  service : MountManager.Run
  sent : List Nat
  replies : List (Nat × Except String MountManager.Response)

namespace Daemons

def mountOf (s : Daemons) (volumeID : String) : Option MountManager.MountEntry :=
  s.service.shared.mountOf volumeID

/-- The threads of the mount service: its workers, and the requests sent to it. -/
def Live (s : Daemons) : MountManager.Thread → Prop
  | .request n => n ∈ s.sent
  | .waiter _ => True

def Answers (d : MountManager.Deployment) (s : Daemons) : (a : Action) → a.Value → Prop
  | .node (.load volumeID), x => x = s.volumes.lookup volumeID
  | .send call, x => ∀ n, x = .ok n → d.calls n = call ∧ n ∉ s.sent
  | .await n, x => (∃ err, x = .error err) ∨ (n, x) ∈ s.replies
  | _, _ => True

def after : (a : Action) → a.Value → Daemons → Daemons
  | .node (.store volumeID volume), _, s => { s with volumes := s.volumes.insert volumeID volume }
  | .node (.delete volumeID), _, s => { s with volumes := s.volumes.erase volumeID }
  | .send _, .ok n, s => { s with sent := n :: s.sent }
  | _, _, s => s

inductive Proceeds (d : MountManager.Deployment) (s : Daemons) : Daemons → Prop
  | works (run : MountManager.Run)
      (hstep : ((MountManager.system d).under fun i r _ => s.Live i ∧ ∀ x, r ≠ .own (.reply x)).Step
        s.service run) : Proceeds d s { s with service := run }
  | replies (n : Nat) (result : Except String MountManager.Response)
      (next : Unit → MountManager.Api Unit) (hsent : n ∈ s.sent)
      (hask : s.service.procs (.request n) = .ask (.own (.reply result)) next) :
      Proceeds d s { s with
        service := s.service.resume (.request n) (next ())
          (s.service.shared.after d (.request n) (.reply result) ())
        replies := (n, result) :: s.replies }

def start (d : MountManager.Deployment) : Daemons := ⟨∅, d.start, [], []⟩

end Daemons

def node (driver : Driver) (d : MountManager.Deployment) :
    Server Call Action Action.Value Status Daemons where
  system := { performs _ a s x s' := s.Answers d a x ∧ s' = Daemons.after a x s
              env := Relation.ReflTransGen (Daemons.Proceeds d) }
  serve := serveCall driver
  restart s := { s with volumes := ∅ }

/-- The mount service has answered an Unmount of the volume with success, and no
Mount of it since. -/
def acknowledged (d : MountManager.Deployment) (volumeID : String) :
    List (Nat × Except String MountManager.Response) → Bool
  | [] => false
  | (_, .error _) :: earlier => acknowledged d volumeID earlier
  | (n, .ok _) :: earlier =>
    match d.calls n with
    | .unmount (some req) =>
      if req.volumeID = volumeID then true else acknowledged d volumeID earlier
    | .mount (some req) =>
      if req.volumeID = volumeID then false else acknowledged d volumeID earlier
    | _ => acknowledged d volumeID earlier

abbrev Csi.Session := Concurrency.Session Action Action.Value Status Daemons

end ClusterState.NodeServer
