import ClusterState.Data.PythonText

/-! # Protected mounts

Before the cache retention removes anything, `mount_ids` collects the identities of all mount
points on the file system that it cleans, as the mount tables of all namespaces name them.
-/

namespace ClusterState.CacheRetention

open ClusterState.Data.PythonText

/-- The major and minor number of a device. -/
abbrev Device := Nat × Nat

/-- What `identity` takes of a `stat` result. -/
abbrev Identity := Device × Nat

structure Stat where
  device : Device
  ino : Nat

def Stat.identity (st : Stat) : Identity := (st.device, st.ino)

/-- Why `mount_ids` raises: a refusal, an object that is gone, or another error. -/
inductive Failure where
  | refuse (message : String)
  | gone
  | other (message : String)
  deriving DecidableEq

/-! ## Records -/

def isPositive (t : Text) : Bool :=
  match t with
  | [] => false
  | c :: rest => c.isDigit && c ≠ '0' && rest.all Char.isDigit

def isNumber (t : Text) : Bool := t = ['0'] || isPositive t

def int (t : Text) : Nat := Nat.ofDigitChars 10 t 0

/-- `os.makedev`, where the device round-trips. -/
def makedev (major minor : Nat) : Option Device :=
  if major < 2 ^ 32 ∧ minor < 2 ^ 32 then some (major, minor) else none

def parseDevice (t : Text) : Option Device :=
  match t.splitOn ':' with
  | [major, minor] =>
    if isNumber major && isNumber minor then makedev (int major) (int minor) else none
  | _ => none

def escapeCodes : List (Text × Char) :=
  [("\\040".toList, ' '), ("\\011".toList, '\t'), ("\\012".toList, '\n'), ("\\134".toList, '\\')]

/-- A backslash that does not start one of the four escapes. -/
def hasStrayEscape : Text → Bool
  | [] => false
  | '\\' :: rest =>
    !(escapeCodes.any fun code => code.1.isPrefixOf ('\\' :: rest)) || hasStrayEscape rest
  | _ :: rest => hasStrayEscape rest

def isInvalidPath (value : Text) : Bool :=
  value.head? ≠ some '/' || value.contains '\x00' || hasStrayEscape value ||
    (value.splitOn '/').any fun part => part = ['.'] || part = ['.', '.']

def decode (mountpoint : Text) : Text :=
  escapeCodes.foldl (fun t code => replace code.1 [code.2] t) mountpoint

/-- A record of the table: its mount number, and its mount point if it is on the device. -/
def checkRecord (device : Device) (mountNumbers : List Text) (line : Text) :
    Except String (Text × Option Text) :=
  let fields := split line
  if fields.length < 10 || fields[fields.length - 4]? ≠ some ['-'] ||
      (fields.take (fields.length - 4)).contains ['-'] || !isPositive (fields.getD 0 []) ||
      !isNumber (fields.getD 1 []) || mountNumbers.contains (fields.getD 0 []) then
    .error "malformed or ambiguous mountinfo record"
  else
    match parseDevice (fields.getD 2 []) with
    | none => .error "invalid mountinfo device"
    | some mountDevice =>
      let values := if mountDevice = device then (fields.drop 3).take 2 else (fields.drop 4).take 1
      if values.any isInvalidPath then .error "invalid mountinfo path"
      else if mountDevice = device then .ok (fields.getD 0 [], some (decode (fields.getD 4 [])))
      else .ok (fields.getD 0 [], none)

/-! ## Scanning -/

/-- What the scan finds under `/proc`. Owners are processes, by name. -/
structure Proc where
  pids : List String
  /-- `stat` of `ns/mnt`. -/
  namespaceId : String → Except Failure Identity
  /-- The same once something of the owner was gone. -/
  namespaceAgain : String → Except Failure Identity
  mountinfo : String → Except Failure Text
  /-- `stat` of a path below `root`. -/
  stat : String → Text → Except Failure Stat

/-- The progress of the scan, with the paths it has asked `stat` for and the owners whose tables
it has gone through. -/
structure Scan where
  result : List Identity
  seen : List Identity
  asked : List (String × Text)
  read : List String

/-- `mountpoint.lstrip('/')` -/
def lstrip (mountpoint : Text) : Text := mountpoint.dropWhile (· = '/')

variable (proc : Proc) (device : Device)

def scanRecords (owner : String) : List Text → List Text → Scan → Except Failure Unit × Scan
  | [], _, s => (.ok (), s)
  | line :: lines, mountNumbers, s =>
    match checkRecord device mountNumbers line with
    | .error message => (.error (.refuse message), s)
    | .ok (number, none) => scanRecords owner lines (number :: mountNumbers) s
    | .ok (number, some mountpoint) =>
      let asked := (owner, lstrip mountpoint) :: s.asked
      match proc.stat owner (lstrip mountpoint) with
      | .error failure => (.error failure, { s with asked })
      | .ok st =>
        if st.device ≠ device then
          (.error (.refuse "relevant mount device changed"), { s with asked })
        else
          scanRecords owner lines (number :: mountNumbers)
            { s with asked, result := st.identity :: s.result }

def scanOwner (owner : String) (s : Scan) : Except Failure Unit × Scan :=
  match proc.namespaceId owner with
  | .error failure => (.error failure, s)
  | .ok ns =>
    if ns ∈ s.seen then (.ok (), s)
    else
      match proc.mountinfo owner with
      | .error failure => (.error failure, s)
      | .ok text =>
        if splitlines text = [] then (.error (.refuse "empty mountinfo"), s)
        else
          match scanRecords proc device owner (splitlines text) [] s with
          | (.error failure, s') => (.error failure, s')
          | (.ok (), s') => (.ok (), { s' with seen := ns :: s'.seen, read := owner :: s'.read })

def scanOwners : List String → Scan → Except Failure (List Identity) × Scan
  | [], s => (.ok s.result, s)
  | owner :: owners, s =>
    match scanOwner proc device owner s with
    | (.ok (), s') => scanOwners owners s'
    | (.error .gone, s') =>
      if owner = "self" then (.error .gone, s')
      else
        match proc.namespaceAgain owner with
        | .error .gone => scanOwners owners s'
        | .error failure => (.error failure, s')
        | .ok _ => (.error .gone, s')
    | (.error failure, s') => (.error failure, s')

def mountIds : Except Failure (List Identity) × Scan :=
  scanOwners proc device ("self" :: proc.pids) ⟨[], [], [], []⟩

/-! ## The tables of the kernel -/

def escape (c : Char) : Text :=
  match escapeCodes.find? fun code => code.2 = c with
  | some code => code.1
  | none => [c]

def escapePath (path : Text) : Text := path.flatMap escape

/-- A mount, as the kernel has it. Only the root and the mount point may hold any characters. -/
structure Mount where
  number : Nat
  parent : Nat
  device : Device
  root : Text
  mountpoint : Text
  options : Text
  optional : List Text
  fstype : Text
  source : Text
  superOptions : Text
  root_ne_nil : root ≠ []
  mountpoint_ne_nil : mountpoint ≠ []
  solid : ∀ f ∈ options :: (optional ++ [fstype, source, superOptions]), Solid f

namespace Mount

def deviceText (m : Mount) : Text :=
  Nat.toDigits 10 m.device.1 ++ ':' :: Nat.toDigits 10 m.device.2

def fields (m : Mount) : List Text :=
  Nat.toDigits 10 m.number :: Nat.toDigits 10 m.parent :: m.deviceText :: escapePath m.root ::
    escapePath m.mountpoint :: m.options :: (m.optional ++ [['-'], m.fstype, m.source, m.superOptions])

def line (m : Mount) : Text := [' '].intercalate m.fields

/-- Where the scan asks for the mount, below the root of the owner. -/
def path (m : Mount) : Text := lstrip m.mountpoint

/-- Root and mount point have no white space but what is escaped. -/
def Plain (m : Mount) : Prop :=
  ∀ c ∈ m.root ++ m.mountpoint, isSpace c = true → c ∈ [' ', '\t', '\n']

end Mount

def tableText (table : List Mount) : Text := (table.map Mount.line).flatMap (· ++ ['\n'])

/-- The scan finds the tables of the kernel, unless it cannot read them. -/
def Proc.Shows (tables : String → List Mount) : Prop :=
  ∀ owner text, proc.mountinfo owner = .ok text → text = tableText (tables owner)

/-- What `mount_ids` promises: it asks for mount points on the device only, returns the identities
of all of them, and leaves no namespace out unless its owner is gone. -/
structure NeverMisreads (tables : String → List Mount) : Prop where
  asks : ∀ entry ∈ (mountIds proc device).2.asked,
    ∃ m ∈ tables entry.1, m.device = device ∧ m.path = entry.2
  contains : ∀ result, (mountIds proc device).1 = .ok result →
    ∀ owner ∈ (mountIds proc device).2.read, ∀ m ∈ tables owner, m.device = device →
      ∃ st, proc.stat owner m.path = .ok st ∧ st.identity ∈ result
  covers : ∀ result, (mountIds proc device).1 = .ok result →
    ∀ owner ∈ "self" :: proc.pids, proc.namespaceAgain owner = .error .gone ∨
      ∃ other ∈ (mountIds proc device).2.read, ∃ ns,
        proc.namespaceId owner = .ok ns ∧ proc.namespaceId other = .ok ns

end ClusterState.CacheRetention
