import ClusterState.MountManager.Execution

/-! # Reconciling stale mounts

After a start without takeover the service sweeps the mount table of the host for
`fuse.seaweedfs` mounts and its socket directory for sockets of volumes. Next to
a legacy service `WatchStaleMounts` repeats the sweep in a goroutine while the
new manager already serves. The two share the mount table and the directory.
-/

namespace ClusterState.MountManager

open Concurrency

/-! ## The mount table -/

/-- `unicode.IsSpace` -/
def isSpace (c : Char) : Bool :=
  c ∈ ['\t', '\n', '\x0b', '\x0c', '\r', ' ', '\u0085', '\u00a0', '\u1680', '\u2028', '\u2029',
    '\u202f', '\u205f', '\u3000'] || (0x2000 ≤ c.toNat && c.toNat ≤ 0x200a)

/-- `strings.Fields` -/
def fields (s : List Char) : List (List Char) := (s.splitOnP isSpace).filter (· ≠ [])

/-- The text before and after the first " - ". -/
def cutSeparator : List Char → Option (List Char × List Char)
  | ' ' :: '-' :: ' ' :: tail => some ([], tail)
  | c :: rest => (cutSeparator rest).map fun (head, tail) => (c :: head, tail)
  | [] => none

def unescapeMountInfo : List Char → List Char
  | '\\' :: '0' :: '4' :: '0' :: rest => ' ' :: unescapeMountInfo rest
  | '\\' :: '0' :: '1' :: '1' :: rest => '\t' :: unescapeMountInfo rest
  | '\\' :: '0' :: '1' :: '2' :: rest => '\n' :: unescapeMountInfo rest
  | '\\' :: '1' :: '3' :: '4' :: rest => '\\' :: unescapeMountInfo rest
  | c :: rest => c :: unescapeMountInfo rest
  | [] => []

def parseMountInfoLineForSeaweedFuse (line : String) : Option String := do
  let (head, tail) ← cutSeparator line.toList
  let mountPoint ← (fields head)[4]?
  let fsType ← (fields tail).head?
  if fsType = "fuse.seaweedfs".toList then some (String.ofList (unescapeMountInfo mountPoint))
  else none

/-- The mount points of the `fuse.seaweedfs` entries, each once. -/
def findSeaweedFuseMounts (lines : List String) : List String :=
  (lines.filterMap parseMountInfoLineForSeaweedFuse).eraseDups

/-! ## The socket directory -/

def defaultSocketDir : String := "/var/lib/seaweedfs-mount"

/-- `filepath.Join` of a clean directory and a name. -/
def joinPath (dir name : String) : String :=
  if dir = "/" then "/" ++ name else dir ++ "/" ++ name

def isVolumeSocket (name : String) : Bool :=
  "seaweedfs-mount-".toList.isPrefixOf name.toList && ".sock".toList.isSuffixOf name.toList &&
    name ≠ "seaweedfs-mount.sock"

/-- The paths that `cleanupStaleVolumeSockets` removes from a directory. -/
def volumeSockets (socketDir : String) (names : List String) : List String :=
  (names.filter isVolumeSocket).map (joinPath socketDir)

/-! ## Sweeps -/

inductive Sweep where
  | readMountInfo
  | lazyUnmount (path : String)
  | readDir (socketDir : String)
  | removeSocket (path : String)
  /-- The `select` on `ctx.Done()` and the ticker. -/
  | done
  deriving DecidableEq, Repr

@[reducible] def Sweep.Value : Sweep → Type
  | .readMountInfo => Except String (List String)
  | .lazyUnmount _ => Except String Unit
  | .readDir _ => Except String (List String)
  | .removeSocket _ => Except String Unit
  | .done => Bool

abbrev Sweeper := Program Sweep Sweep.Value String

def sweep (r : Sweep) : Sweeper r.Value := .ask r .done

def lazyUnmountAll : List String → Sweeper Unit
  | [] => pure ()
  | mp :: mounts => do
    let _ ← sweep (.lazyUnmount mp)
    lazyUnmountAll mounts

def removeSockets : List String → Sweeper Unit
  | [] => pure ()
  | p :: paths => do
    let _ ← sweep (.removeSocket p)
    removeSockets paths

def cleanupStaleVolumeSockets (socketDir : String) : Sweeper Unit := do
  match ← sweep (.readDir socketDir) with
  | .error _ => pure ()
  | .ok names => removeSockets (volumeSockets socketDir names)

def reconcileStaleMounts (socketDir : String) : Sweeper Nat := do
  match ← sweep .readMountInfo with
  | .error _ => pure 0
  | .ok lines =>
    let mounts := findSeaweedFuseMounts lines
    lazyUnmountAll mounts
    cleanupStaleVolumeSockets (if socketDir = "" then defaultSocketDir else socketDir)
    pure mounts.length

def watchStaleMounts (socketDir : String) : Nat → Sweeper Unit
  | 0 => .halt
  | left + 1 => do
    let _ ← reconcileStaleMounts socketDir
    if ← sweep .done then pure () else watchStaleMounts socketDir left

/-! ## The bridge from a legacy service -/

/-- The run of the manager and what it shares with the watcher. The last two
fields are not in the source: what the watcher has found and not dealt with. -/
structure Bridge where
  service : Run
  mountInfo : List String
  socketNames : List String
  foundMounts : List String
  foundSockets : List String

namespace Bridge

def Answers (s : Bridge) : (r : Sweep) → r.Value → Prop
  | .readMountInfo, x => ∀ lines, x = .ok lines → lines = s.mountInfo
  | .readDir _, x => ∀ names, x = .ok names → names = s.socketNames
  | _, _ => True

def after : (r : Sweep) → r.Value → Bridge → Bridge
  | .readMountInfo, .ok lines, s => { s with foundMounts := findSeaweedFuseMounts lines }
  | .lazyUnmount mp, x, s =>
    { s with
      foundMounts := s.foundMounts.erase mp
      mountInfo := if x.isOk then
          (s.mountInfo.reverse.eraseP (parseMountInfoLineForSeaweedFuse · = some mp)).reverse
        else s.mountInfo }
  | .readDir socketDir, .ok names, s => { s with foundSockets := volumeSockets socketDir names }
  | .removeSocket p, _, s => { s with foundSockets := s.foundSockets.erase p }
  | _, _, s => s

end Bridge

inductive BridgeStep where
  | sweep (r : Sweep)
  | serve (r : Request)

abbrev BridgeSteps := BridgeStep → Bridge → Prop

/-- What happens next to the watcher: the manager works, or the mount table and
the socket directory change. -/
inductive Bridge.Proceeds (d : Deployment) (A : BridgeSteps) (s : Bridge) : Bridge → Prop
  | serves (run : Run)
      (hstep : ((system d).under fun _ r _ => A (.serve r) s).Step s.service run) :
      Proceeds d A s { s with service := run }
  | host (mountInfo socketNames : List String) :
      Proceeds d A s { s with mountInfo, socketNames }

def bridge (d : Deployment) (A : BridgeSteps) : System PUnit Sweep Sweep.Value Bridge where
  performs _ r s x s' := A (.sweep r) s ∧ s.Answers r x ∧ s' = Bridge.after r x s
  env := Relation.ReflTransGen (Bridge.Proceeds d A)

abbrev BridgeRun := Config PUnit Sweep Sweep.Value String Unit Bridge

def bridgeStart (d : Deployment) (socketDir : String) (sweeps : Nat)
    (mountInfo socketNames : List String) : BridgeRun :=
  ⟨fun _ => watchStaleMounts socketDir sweeps, ⟨d.start, mountInfo, socketNames, [], []⟩⟩

end ClusterState.MountManager
