import ClusterState.Concurrency.Alone
import ClusterState.Backup.Recognition

/-! # The upgrade admission

The script dumps the database into a stage that is hidden, takes its observation of
the database before and after, and makes the stage an archive with one rename. A
signal makes the script clean up where the next command would have failed.
-/

namespace ClusterState.Backup.Upgrade

open Concurrency

/-- The environment of the script; what is not set is empty. -/
structure Settings where
  gitlabVersion : String
  chartVersion : String
  pgHost : String
  pgPort : String
  pgDatabase : String
  pgUser : String
  ciDbHost : String
  ciDbPort : String
  ciDbName : String
  ciDatabaseTasks : String

inductive Command where
  | chartInfo
  | id
  | mktempPrivate
  | password
  | writePgpass
  | clientVersion (client : String)
  | query
  | recovery
  | archives
  | mkdirArchives
  | mktemp
  | pgDump (stage : String)
  | entry (path : String)
  | mvDump (stage : String)
  | sha256sum (stage : String)
  | pgRestoreList (stage : String)
  | sha256sumCheck (path : String)
  | date
  | writeAdmission (stage text : String)
  | sync
  | publish (stage published : String)
  | removeStage (stage : String)
  | removePrivate

/-- What a command prints or a test finds, `none` if the command fails. -/
abbrev Command.Value (Content : Type) : Command → Type
  | .chartInfo => Option (String × String)
  | .id => String
  | .mktempPrivate => Option Unit
  | .password => Option String
  | .writePgpass => Option Unit
  | .clientVersion _ => Option String
  | .query => Option String
  | .recovery => Bool
  | .archives => Place Content
  | .mkdirArchives => Option Unit
  | .mktemp => Option String
  | .pgDump _ => Option Unit
  | .entry _ => Option (Entry Content)
  | .mvDump _ => Option Unit
  | .sha256sum _ => Option Unit
  | .pgRestoreList _ => Option Unit
  | .sha256sumCheck _ => Option Unit
  | .date => Utc
  | .writeAdmission _ _ => Option Unit
  | .sync => Option Unit
  | .publish _ _ => Option Unit
  | .removeStage _ => Option Unit
  | .removePrivate => Option Unit

variable (Content : Type)

abbrev Script := Program Command (Command.Value Content) String

variable {Content}

def act (r : Command) : Script Content (r.Value Content) := .ask r .done

def orFail {α : Type} (reason : String) : Option α → Script Content α
  | some a => pure a
  | none => throw reason

/-- `[[ ... ]] || fail reason` -/
def check (ok : Bool) (reason : String) : Script Content Unit :=
  if ok then pure () else throw reason

/-! ## Texts -/

/-- `$(...)` drops the newlines at the end. -/
def trimNewlines (text : String) : String :=
  String.ofList (text.toList.reverse.dropWhile (· == '\n')).reverse

def dropV (cs : List Char) : List Char :=
  match cs with
  | 'v' :: rest => rest
  | cs => cs

/-- `0|[1-9][0-9]{0,2}` -/
def isComponent (part : List Char) : Bool :=
  part == ['0'] || part.all Char.isDigit && part.head? != some '0' && part.head?.isSome &&
    decide (part.length ≤ 3)

def stable (version : String) : Bool :=
  let parts := (dropV version.toList).splitOn '.'
  decide (parts.length = 3) && parts.all isComponent

/-- `${version#v}` -/
def withoutV (version : String) : String := String.ofList (dropV version.toList)

/-- The number after the last dot. -/
def patchOf (version : String) : Nat := Nat.ofDigitChars 10 ((version.toList.splitOn '.').getLastD []) 0

def isHost (text : String) : Bool :=
  !text.isEmpty && text.toList.all fun c => c.isAlphanum || c == '.' || c == '-'

def isPort (text : String) : Bool :=
  decide (1 ≤ text.toList.length ∧ text.toList.length ≤ 5) && text.toList.all Char.isDigit

def isWord (text : String) : Bool :=
  !text.isEmpty && text.toList.all fun c => c.isAlphanum || c == '_'

def isLowerHex (c : Char) : Bool := c.isDigit || (decide ('a' ≤ c) && decide (c ≤ 'f'))

def isAddress (cs : List Char) : Bool :=
  !cs.isEmpty && cs.all fun c =>
    isLowerHex c || (decide ('A' ≤ c) && decide (c ≤ 'F')) || c == ':' || c == '.'

/-- The observation that `observe` accepts. -/
def isObservation (settings : Settings) (observation : String) : Bool :=
  match observation.toList.splitOn '|' with
  | [readOnly, version, database, user, address, port, schema, native, fingerprint, count, pending] =>
    readOnly == "on".toList && version.take 2 == "17".toList && decide (version.length = 6) &&
      version.all Char.isDigit && database == settings.pgDatabase.toList &&
      user == settings.pgUser.toList && isAddress address && isPort (String.ofList port) &&
      schema == "public".toList && native == "native".toList &&
      decide (fingerprint.length = 32) && fingerprint.all isLowerHex && !count.isEmpty &&
      count.all Char.isDigit && pending == "0".toList
  | _ => false

/-- `[a-z_]+ \(PostgreSQL\) 17\.[0-9]+([ (].*)?` -/
def isClient17 (version : String) : Bool :=
  let (name, rest) := version.toList.span fun c => c.isLower || c == '_'
  !name.isEmpty && (" (PostgreSQL) 17.".toList.isPrefixOf rest &&
    match (rest.drop " (PostgreSQL) 17.".toList.length).span Char.isDigit with
    | ([], _) => false
    | (_, []) => true
    | (_, c :: _) => c == ' ' || c == '(')

/-- `date -u +%FT%TZ` -/
def twoDigits (n : Nat) : List Char := [Nat.digitChar (n / 10), Nat.digitChar (n % 10)]

def fourDigits (n : Nat) : List Char := twoDigits (n / 100) ++ twoDigits (n % 100)

def isoDate (t : Utc) : String :=
  String.ofList (fourDigits t.year ++ '-' :: twoDigits t.month ++ '-' :: twoDigits t.day ++
    'T' :: twoDigits t.hour ++ ':' :: twoDigits t.minute ++ ':' :: twoDigits t.second ++ ['Z'])

structure Versions where
  previous : String
  previousChart : String
  target : String
  targetChart : String

def ofLines : List String → String
  | [] => ""
  | line :: rest => line ++ "\n" ++ ofLines rest

def admissionFields (v : Versions) (observedAt identity : String) : List String :=
  ["previous_gitlab=" ++ v.previous, "previous_chart=" ++ v.previousChart,
    "target_gitlab=" ++ v.target, "target_chart=" ++ v.targetChart, "observed_at=" ++ observedAt,
    "identity=" ++ identity]

def admissionText (v : Versions) (observedAt identity : String) : String :=
  ofLines (admissionFields v observedAt identity)

/-! ## The script -/

def checkVersions (settings : Settings) (chartInfo : String × String) : Except String Versions :=
  let previous := trimNewlines chartInfo.1
  let previousChart := trimNewlines chartInfo.2
  let v : Versions := ⟨withoutV previous, withoutV previousChart, withoutV settings.gitlabVersion,
    withoutV settings.chartVersion⟩
  if !([previous, previousChart, settings.gitlabVersion, settings.chartVersion].all stable) then
    .error "missing or malformed stable version"
  else if !(String.isPrefixOf "19.5." v.previous && String.isPrefixOf "19.5." v.target &&
      String.isPrefixOf "10.5." v.previousChart && String.isPrefixOf "10.5." v.targetChart) then
    .error "unsupported previous model or required-stop path"
  else if patchOf v.target < patchOf v.previous ∨ patchOf v.targetChart < patchOf v.previousChart then
    .error "downgrade"
  else .ok v

def checkSettings (settings : Settings) : Except String Unit :=
  if settings.pgHost = "" ∨ settings.pgPort = "" ∨ settings.pgDatabase = "" ∨
      settings.pgUser = "" then
    .error "missing DB settings"
  else if settings.ciDbHost ≠ settings.pgHost ∨ settings.ciDbPort ≠ settings.pgPort ∨
      settings.ciDbName ≠ settings.pgDatabase ∨ settings.ciDatabaseTasks ≠ "false" then
    .error "unsupported split main/CI topology"
  else if !(isHost settings.pgHost && isPort settings.pgPort && isWord settings.pgDatabase &&
      isWord settings.pgUser) then
    .error "malformed DB settings"
  else .ok ()

def observe (settings : Settings) : Script Content String := do
  let observation := trimNewlines (← orFail "read-only DB query failed" (← act .query))
  check (isObservation settings observation) "unsafe or malformed DB observation"
  pure observation

def checkClients : List String → Script Content Unit
  | [] => pure ()
  | client :: rest => do
    let version ← orFail "client version unavailable" (← act (.clientVersion client))
    check (isClient17 (trimNewlines version)) "requires PostgreSQL17 clients"
    checkClients rest

/-- `[[ -s file ]]` -/
def nonEmpty (py : Python Content) (entry : Option (Entry Content)) (name : String) : Bool :=
  match entry with
  | some (.directory d) =>
    match d.files.lookup name with
    | some (.file f) => decide (0 < py.size f.content)
    | _ => false
  | _ => false

/-- `stat -c '%u:%g:%a' "$file"` is `1000:1000:600`. -/
def hasPrivateMode : Leaf Content → Bool
  | .file f => decide (f.attributes = ⟨1000, 1000, 0o600⟩)
  | .other => false

def checkFiles : List ((_ : String) × Leaf Content) → Script Content Unit
  | [] => pure ()
  | entry :: rest => do
    check (hasPrivateMode entry.2) "archive permissions unsafe"
    orFail "archive sync failed" (← act .sync)
    checkFiles rest

/-- The files that `"$stage"/*` names. -/
def visibleFiles (entry : Option (Entry Content)) : List ((_ : String) × Leaf Content) :=
  match entry with
  | some (.directory d) => d.files.entries.filter fun file => !String.isPrefixOf "." file.1
  | _ => []

def dumpInto (py : Python Content) (stage : String) : Script Content Unit := do
  orFail "DB archive failed" (← act (.pgDump stage))
  check (nonEmpty py (← act (.entry stage)) "database.dump.partial") "empty DB archive"
  orFail "archive rename failed" (← act (.mvDump stage))
  orFail "archive checksum failed" (← act (.sha256sum stage))
  orFail "archive unreadable" (← act (.pgRestoreList stage))
  check (nonEmpty py (← act (.entry stage)) "archive.list") "empty archive listing"
  orFail "archive readback failed" (← act (.sha256sumCheck stage))

def describe (v : Versions) (mainBefore stage : String) : Script Content Unit := do
  let observedAt := isoDate (← act .date)
  orFail "" (← act (.writeAdmission stage (admissionText v observedAt mainBefore)))
  checkFiles (visibleFiles (← act (.entry stage)))

def publishStage (settings : Settings) (mainBefore stage published : String) :
    Script Content Unit := do
  let mainAfter ← observe settings
  let ciAfter ← observe settings
  check (mainBefore == mainAfter && mainAfter == ciAfter)
    "DB identity/schema/migration state changed during archive"
  check (← act (.entry published)).isNone "archive publication collision"
  orFail "archive publication failed" (← act (.publish stage published))
  check (← act (.entry stage)).isNone "archive publication failed"

def archive (py : Python Content) (settings : Settings) (v : Versions)
    (mainBefore stage published : String) : Script Content Unit := do
  dumpInto py stage
  describe v mainBefore stage
  publishStage settings mainBefore stage published

def privateArchives (p : Place Content) : Bool :=
  decide (p.attributes? = some ⟨1000, 1000, 0o700⟩)

def mkdirIfAbsent (p : Place Content) : Script Content Unit :=
  match p with
  | .absent => do orFail "recovery directory unwritable" (← act .mkdirArchives)
  | _ => pure ()

/-- The script between the traps of its private workspace. -/
def admission (py : Python Content) (settings : Settings) (v : Versions) : Script Content Unit := do
  let password := trimNewlines (← orFail "DB password file missing" (← act .password))
  check (!password.isEmpty && !password.toList.contains '\n' && !password.toList.contains '\r')
    "invalid password file"
  orFail "" (← act .writePgpass)
  checkClients ["psql", "pg_dump", "pg_restore"]
  let mainBefore ← observe settings
  let ciBefore ← observe settings
  check (mainBefore == ciBefore) "main/CI identity mismatch"
  check (← act .recovery) "recovery mount absent"
  mkdirIfAbsent (← act .archives)
  check (privateArchives (← act .archives)) "recovery directory not private UID/GID1000 mode0700"
  let random ← orFail "recovery destination unwritable or full" (← act .mktemp)
  let stage := ".admission." ++ random
  let published := "admission." ++ random
  tryCatch (archive py settings v mainBefore stage published) fun message => do
    orFail message (← act (.removeStage stage))
    throw message
  orFail "archive publication sync failed" (← act .sync)
  orFail "published archive readback failed" (← act (.sha256sumCheck published))

def script (py : Python Content) (settings : Settings) : Script Content Unit := do
  let chartInfo ← orFail "previous chart-info missing" (← act .chartInfo)
  let v ← Program.ofExcept (checkVersions settings chartInfo)
  Program.ofExcept (checkSettings settings)
  check ((← act .id) == "1000:1000") "requires UID/GID1000"
  orFail "private workspace inaccessible" (← act .mktempPrivate)
  (admission py settings v).finallyDo do orFail "" (← act .removePrivate)

end ClusterState.Backup.Upgrade
