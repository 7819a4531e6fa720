import ClusterState.CacheRetention.Walking

/-! # The retention run

`retain` looks at every directory below the roots, deletes those that are too old, then
the oldest of the others while the file system is too full, and last lets `uv` clean its
own cache.
-/

namespace ClusterState.CacheRetention

open ClusterState.Data.PythonText Concurrency

structure Root where
  path : Path
  days : Nat

structure Settings where
  execute : Bool
  /-- `now - days * DAY` -/
  expires : Nat → ℚ

def workspaceRoot : Path := codePoints "/var/lib/ci-builds-nocow"

def roots : List Root := [⟨workspaceRoot, 7⟩, ⟨uvRoot.root, 30⟩]

def coldReserve : Nat := 38857516474

/-! ## Requests -/

/-- What the run asks for. The two walks are requests of their own here. -/
inductive Call where
  | lstat (path : Path)
  | iterdir (path : Path)
  | lstatChild (target : Target)
  | snapshot (target : Target) (limits : Limits) (nativeUv : Bool)
  | removeTree (target : Target) (limits : Limits) (expectedRoot : Option Identity)
  | mounts
  | opened
  | gate
  | used (path : Path)
  | available (path : Path)
  | readOnly (path : Path)
  | openTag
  | fstatTag
  | readTag (length : Nat)
  | uvDigest
  | uvVersion
  | uvClean

abbrev Call.Result : Call → Type
  | lstat _ => Metadata
  | iterdir _ => List Name
  | lstatChild _ => Metadata
  | snapshot _ _ _ => Proof × WithBot ℚ
  | removeTree _ _ _ => Unit
  | mounts => List Identity
  | opened => List Identity
  | gate => Unit
  | used _ => ℚ
  | available _ => Nat
  | readOnly _ => Bool
  | openTag => Unit
  | fstatTag => Metadata
  | readTag _ => Text
  | uvDigest => Text
  | uvVersion => Int × Text
  | uvClean => Int

abbrev Retain := Program Call (fun r => Except Failure r.Result) Failure

/-- A request whose failure is looked at. -/
def inquire (r : Call) : Retain (Except Failure r.Result) := .ask r .done

def call (r : Call) : Retain r.Result := .ask r .ofExcept

def decline {α : Type} (message : String) : Retain α := throw (.refuse message)

def declinePath {α : Type} (message : String) (path : Path) (why : Text) : Retain α :=
  throw (.refuse (message ++ String.ofList (shown path ++ why)))

/-! ## Candidates -/

def retainedNames : List Name :=
  [codePoints "bun", codePoints "cargo", codePoints "tools", codePoints "python", codePoints "managed-python",
    codePoints "uv-tools", codePoints "uv-python"]

def storeNames : List Name :=
  [codePoints "storage", codePoints "docker", codePoints "containerd", codePoints "containers",
    codePoints "libpod"]

def skipped (target : Target) : Bool :=
  target = uvRoot || target.root = uvRoot.root && retainedNames.contains target.name

structure Found where
  root : Root
  target : Target
  proof : Proof
  latest : WithBot ℚ

def limitsOf (root : Root) (device : Device) (mounted busy : List Identity) : Limits where
  device := device
  busy := busy
  mounted := mounted
  links := root.path = workspaceRoot

def examine (root : Root) (device : Device) (mounted busy : List Identity) (target : Target) :
    Retain Found := do
  let st ← call (.lstatChild target)
  if st.isDirectory then
    if storeNames.contains target.name then declinePath "image/runtime store name: " target.path []
    else
      let (proof, latest) ← call (.snapshot target (limitsOf root device mounted busy) false)
      return ⟨root, target, proof, latest⟩
  else declinePath "candidate is not an ordinary directory: " target.path []

/-- The candidates of a root. What is refused is protected. -/
def collect (root : Root) (device : Device) (mounted busy : List Identity) :
    List Name → Retain (List Found)
  | [] => pure []
  | name :: rest => do
    if skipped ⟨root.path, name⟩ then collect root device mounted busy rest
    else
      match ← (examine root device mounted busy ⟨root.path, name⟩).attempt with
      | .ok found => return found :: (← collect root device mounted busy rest)
      | .error (.refuse _) => collect root device mounted busy rest
      | .error e => throw e

def collectAll (mounted busy : List Identity) : List (Root × Metadata) → Retain (List Found)
  | [] => pure []
  | (root, st) :: rest => do
    let names ← call (.iterdir root.path)
    let found ← collect root st.device mounted busy (sorted names)
    return found ++ (← collectAll mounted busy rest)

/-- Workspaces first, and the oldest first. -/
def rank (roots : List Root) (found : Found) : ℕ ×ₗ WithBot ℚ ×ₗ Path :=
  toLex (roots.findIdx (·.path = found.root.path), toLex (found.latest, found.target.path))

def ranked (roots : List Root) (found : List Found) : List Found :=
  found.insertionSort fun a b => rank roots a ≤ rank roots b

/-! ## Deleting -/

def checkRoots : List Root → Retain (List (Root × Metadata))
  | [] => pure []
  | root :: rest => do
    let st ← call (.lstat root.path)
    return (root, st) :: (← checkRoots rest)

def checkKinds : List (Root × Metadata) → Retain Unit
  | [] => pure ()
  | (root, st) :: rest =>
    if st.isDirectory then checkKinds rest
    else declinePath "root is not an ordinary directory: " root.path []

def commonDevice : List (Root × Metadata) → Option Device
  | [] => none
  | (_, st) :: rest => if rest.all (·.2.device = st.device) then some st.device else none

def declineChanged (found : Found) (why : Text) : Retain Unit :=
  declinePath "candidate changed/open/mounted: " found.target.path why

def delete (settings : Settings) (device : Device) (found : Found) : Retain Unit :=
  if settings.execute then do
    call .gate
    let root ← call (.lstat found.root.path)
    if root.isDirectory && root.device = device then
      let mounted ← call .mounts
      let busy ← call .opened
      let limits := limitsOf found.root device mounted busy
      match ← inquire (.snapshot found.target limits false) with
      | .error (.refuse message) => declineChanged found (": ".toList ++ message.toList)
      | .error e => throw e
      | .ok (proof, _) =>
        if proof = found.proof then
          call .gate
          call (.removeTree found.target limits proof.2)
        else declineChanged found []
    else decline "retention root filesystem changed"
  else pure ()

def Found.expired (settings : Settings) (found : Found) : Bool :=
  found.latest ≤ settings.expires found.root.days

/-- Deletes what is too old, and returns the rest. -/
def deleteExpired (settings : Settings) (device : Device) : List Found → Retain (List Found)
  | [] => pure []
  | found :: rest => do
    if found.expired settings then
      delete settings device found
      deleteExpired settings device rest
    else return found :: (← deleteExpired settings device rest)

def isOver (pressure : Bool) (found : Found) : Retain Bool :=
  if pressure then do return decide (65 < (← call (.used found.root.path)))
  else pure false

def reclaim (settings : Settings) (device : Device) (pressure : Bool) (found : Found) :
    Retain Unit := do
  if ← isOver pressure found then delete settings device found
  else pure ()

def reclaimAll (settings : Settings) (device : Device) (pressure : Bool) :
    List Found → Retain Unit
  | [] => pure ()
  | found :: rest => do
    reclaim settings device pressure found
    reclaimAll settings device pressure rest

/-! ## The cache of `uv` -/

def uvAncestors : List Path :=
  [codePoints "/", codePoints "/var", codePoints "/var/lib", codePoints "/var/lib/ci-cache-nocow"]

structure Ancestor where
  path : Path
  identity : Identity
  mode : Nat
  uid : Nat
  gid : Nat
  deriving DecidableEq

def checkAncestors : List Path → Retain (List Ancestor)
  | [] => pure []
  | path :: rest => do
    let st ← call (.lstat path)
    if st.isDirectory then
      return ⟨path, st.identity, st.mode, st.uid, st.gid⟩ :: (← checkAncestors rest)
    else decline "UV ancestor is not an ordinary directory"

def uvBuckets : List Name :=
  [codePoints "archive", codePoints "binaries", codePoints "builds", codePoints "environments",
    codePoints "flat-index", codePoints "git", codePoints "interpreter", codePoints "osv",
    codePoints "python", codePoints "sdists", codePoints "simple", codePoints "wheels"]

/-- `(archive|…|wheels)-v[0-9]+` -/
def isUvBucket (name : Name) : Bool :=
  uvBuckets.any fun bucket =>
    (bucket ++ codePoints "-v").isPrefixOf name &&
      let version := name.drop (bucket.length + 2)
      version ≠ [] && version.all CodePoint.isDigit

def uvFiles : List Name := [codePoints ".gitignore", codePoints ".lock", codePoints "CACHEDIR.TAG"]

def checkUvEntries : List Name → Retain Unit
  | [] => pure ()
  | name :: rest => do
    let st ← call (.lstatChild ⟨uvRoot.path, name⟩)
    if st.isDirectory && isUvBucket name || !st.isDirectory && uvFiles.contains name && st.isRegular then
      checkUvEntries rest
    else decline "UV cache-only role not established"

def cacheTag : Text := "Signature: 8a477f597d28d172789f06886806bc55".toList

def checkUvTag : Retain Unit := do
  call .openTag
  let st ← call .fstatTag
  if st.isRegular then
    if (← call (.readTag cacheTag.length)) = cacheTag then pure ()
    else decline "invalid UV cache marker"
  else decline "invalid UV cache marker"

def checkUvRoot (device : Device) (mounted busy : List Identity) : Retain Unit := do
  let parent ← call (.lstat uvRoot.root)
  if parent.device = device then
    if ← call (.readOnly uvRoot.root) then decline "UV filesystem is read-only"
    else
      let st ← call (.lstat uvRoot.path)
      .ofExcept (checkEntry ⟨device, busy, mounted, true⟩ false st)
      if st.isDirectory then pure () else decline "UV root is not an ordinary directory"
  else decline "UV parent filesystem changed"

def uvProof (device : Device) (mounted busy : List Identity) : Retain (List Ancestor × Proof) := do
  let ancestors ← checkAncestors uvAncestors
  checkUvRoot device mounted busy
  checkUvEntries (← call (.iterdir uvRoot.path))
  checkUvTag
  let (proof, _) ← call (.snapshot uvRoot ⟨device, busy, mounted, true⟩ true)
  return (ancestors, proof)

def uvSha256 : Text := "0c7b00d4f2c10d0bf66b26e4f432388d7782e1071d913f921eae0b8e35cb3c80".toList

/-- `uv 0\.11\.26(?: \([^\r\n]*\))?\n` -/
def isUvVersion (output : Text) : Bool :=
  output = "uv 0.11.26\n".toList ||
    "uv 0.11.26 (".toList.isPrefixOf output && ")\n".toList.isSuffixOf output &&
      let build := (output.drop "uv 0.11.26 (".toList.length).dropLast.dropLast
      13 < output.length && !build.contains '\r' && !build.contains '\n'

def qualifyUv : Retain Unit := do
  if (← call .uvDigest) = uvSha256 then
    let (status, output) ← call .uvVersion
    if status = 0 && isUvVersion output then pure () else decline "unsupported UV version"
  else decline "unsupported UV binary"

def cleanUv (device : Device) (mounted busy : List Identity) : Retain Unit := do
  match ← inquire (.lstat uvRoot.path) with
  | .error .gone => pure ()
  | .error e => throw e
  | .ok _ =>
    let proof ← uvProof device mounted busy
    qualifyUv
    call .gate
    let mounted ← call .mounts
    let busy ← call .opened
    let current ← uvProof device mounted busy
    if current = proof then
      call .gate
      let status ← call .uvClean
      if status = 0 then pure () else decline "UV native clean failed"
    else decline "UV root/fingerprint changed"

/-! ## The run -/

/-- What the candidates were found with, and whether the file system was too full. -/
structure Swept where
  roots : List (Root × Metadata)
  device : Device
  mounted : List Identity
  busy : List Identity
  pressure : Bool

def firstPath (roots : List Root) : Path := (roots.map Root.path).headD []

def sweep (settings : Settings) (roots : List Root) : Retain Swept := do
  let stats ← checkRoots roots
  checkKinds stats
  match commonDevice stats with
  | none => decline "retention roots must share the same filesystem"
  | some device =>
    let mounted ← call .mounts
    let busy ← call .opened
    let found ← collectAll mounted busy stats
    let remaining ← deleteExpired settings device (ranked roots found)
    let pressure := decide (67 ≤ (← call (.used (firstPath roots))))
    reclaimAll settings device pressure remaining
    return ⟨stats, device, mounted, busy, pressure⟩

def checkUvParents : List (Root × Metadata) → Retain Unit
  | [] => pure ()
  | (root, st) :: rest => do
    if root.path = uvRoot.root then
      if (← call (.lstat root.path)).identity = st.identity then checkUvParents rest
      else decline "UV parent replaced"
    else checkUvParents rest

/-- The usage in the end, after `uv` has cleaned its cache if there is need. -/
def finalUsage (settings : Settings) (roots : List Root) (swept : Swept) : Retain ℚ := do
  let final ← call (.used (firstPath roots))
  if settings.execute && swept.pressure && 65 < final then
    checkUvParents swept.roots
    cleanUv swept.device swept.mounted swept.busy
    call (.used (firstPath roots))
  else return final

def retain (settings : Settings) (roots : List Root) : Retain Unit := do
  let swept ← sweep settings roots
  let final ← finalUsage settings roots swept
  if settings.execute && swept.pressure then
    if 65 < final then decline "cannot reach 65% within approved idle directories; no scope widening"
    else if (← call (.available (firstPath roots))) < coldReserve then
      decline "cold reserve not reached; no scope widening"
    else pure ()
  else pure ()

end ClusterState.CacheRetention
