import ClusterState.Concurrency.Alone
import ClusterState.Backup.Recognition

/-! # The exporter

`main` makes a native backup, publishes it by renaming a stage that nobody
recognises, and removes what is not retained any more.
-/

namespace ClusterState.Backup

open Concurrency

/-- What the output of `backup-utility` shows, and what it left behind. -/
structure Production where
  started : Nat
  /-- There is a message that a bucket could not be checked. -/
  silentFailure : Bool
  outcomes : List (String × String)
  published : List String
  ended : Nat
  /-- A regular file `backup_tars/` with the name and no older than the start. -/
  fresh : String → Bool

inductive Request (Content : Type) where
  | getuid
  | recovery
  | look (l : Location)
  | mkdirExports
  | flock
  | version
  | openLog
  | native
  | cleanup
  | inspectArchive (name : String) (empty : List String)
  | digestSource (name : String)
  | mkdtemp (target : String)
  | copyfile (name stage : String)
  | write (stage name : String) (content : Content)
  | stat (l : Location) (path : String)
  | sync
  | rename (stage target : String)
  | unlink (l : Location) (path name : String)
  | rmdir (l : Location) (path : String)
  | rmtree (stage : String)

/-- The answer, `none` if the call fails. -/
abbrev Request.Value {Content : Type} : Request Content → Type
  | .getuid => Nat × Nat
  | .recovery => Bool
  | .look _ => Option (Place Content)
  | .mkdirExports => Option Unit
  | .flock => Option Unit
  | .version => Option String
  | .openLog => Option Unit
  | .native => Option Production
  | .cleanup => Option Unit
  | .inspectArchive _ _ => Option Content
  | .digestSource _ => Option String
  | .mkdtemp _ => Option String
  | .copyfile _ _ => Option Unit
  | .write _ _ _ => Option Unit
  | .stat _ _ => Option (Option (Entry Content))
  | .sync => Option Unit
  | .rename _ _ => Option Unit
  | .unlink _ _ _ => Option Unit
  | .rmdir _ _ => Option Unit
  | .rmtree _ => Option Unit

abbrev Export (Content : Type) := Program (Request Content) Request.Value Failure

variable {Content : Type}

def act (r : Request Content) : Export Content r.Value := .ask r .done

def orFail {α : Type} : Option α → Export Content α
  | some a => pure a
  | none => throw .osError

def lift {α : Type} : Except Failure α → Export Content α := Program.ofExcept

variable (py : Python Content)

/-! ## Before the publication -/

def privatePlace (p : Place Content) : Except Failure Unit :=
  match p.attributes? with
  | some attributes => privateDirectory attributes
  | none => .error (.refused unsafeNamespace)

def mkdirIfAbsent (p : Place Content) : Export Content Unit :=
  match p with
  | .absent => do orFail (← act .mkdirExports)
  | _ => pure ()

/-- `namespace(recovery / 'gitlab-exports')` -/
def namespaceExports : Export Content Unit := do
  mkdirIfAbsent (← orFail (← act (.look .exports)))
  lift (privatePlace (← orFail (← act (.look .exports))))

def blobs : List String := ["registry", "uploads", "artifacts", "lfs", "packages"]

/-- `(0|[1-9][0-9]*)\.(0|[1-9][0-9]*)\.(0|[1-9][0-9]*)` -/
def isStableVersion (version : String) : Bool :=
  let parts := version.toList.splitOn '.'
  parts.length = 3 && parts.all fun part =>
    part = ['0'] || (!part.isEmpty && part.all Char.isDigit && part.head? ≠ some '0')

/-- `produce`, from the output of the native program on. -/
def checkProduction (version : String) (p : Production) : Except Failure (String × List String) := do
  require (p.silentFailure = false) "native silent bucket-check failure"
  let names := p.outcomes.map Prod.fst
  require (p.outcomes.length = blobs.length ∧ names ⊆ blobs ∧ blobs ⊆ names)
    "native enabled component output changed/incomplete"
  let empty := (p.outcomes.filter fun outcome => outcome.2 = "empty").map Prod.fst
  match p.published with
  | [name] =>
    match matchName py name with
    | some (timestamp, reported) =>
      require (reported = version ∧ p.started / 10 ^ 9 ≤ timestamp ∧ timestamp ≤ p.ended / 10 ^ 9)
        "archive does not belong to this native invocation"
      require (p.fresh name) "missing/fresh native local archive required"
      .ok (name, empty)
    | none => .error (.refused "archive does not belong to this native invocation")
  | _ => .error (.refused "native publication output changed/incomplete")

def produce (version : String) : Export Content (String × List String) := do
  lift (checkProduction py version (← orFail (← act .native)))

structure Prepared (Content : Type) where
  name : String
  timestamp : Nat
  metadata : Content
  checksum : String
  target : String
  retained : List (Nat × String)
  dbRetained : List (Utc × String)

/-- `main` up to the stage. -/
def prepare : Export Content (Prepared Content) := do
  lift (require ((← act .getuid) = (1000, 1000)) "requires UID/GID1000")
  lift (require ((← act .recovery) = true) "recovery mount missing/unsafe")
  namespaceExports
  orFail (← act .flock)
  let version ← orFail (← act .version)
  lift (require (isStableVersion version) "native image requires a stable numeric version")
  orFail (← act .openLog)
  let (name, empty) ← produce py version
  match matchName py name with
  | none => throw .osError -- the assertion
  | some (timestamp, _) =>
    let metadata ← orFail (← act (.inspectArchive name empty))
    let checksum ← orFail (← act (.digestSource name))
    let target := (stem? name).getD name
    let there ← orFail (← act (.stat .exports target))
    lift (require (there.isNone) "publication collision")
    let retained ← lift (completed py (← orFail (← act (.look .exports))))
    let dbRetained ← lift (completedDbArchives py (← orFail (← act (.look .dbArchives))))
    pure ⟨name, timestamp, metadata, checksum, target, retained, dbRetained⟩

/-! ## Publication and retention -/

def directoryAt (l : Location) (path : String) : Export Content (Directory Content) := do
  match ← orFail (← act (.stat l path)) with
  | some (.directory d) => pure d
  | _ => throw .osError

def privateLeaf (d : Directory Content) (name : String) : Except Failure Unit :=
  match d.files.lookup name with
  | some leaf => privateFile leaf
  | none => .error .osError

def checkDigest (path name checksum reason : String) : Export Content Unit := do
  let found ← lift (digest py (← directoryAt .exports path) name)
  lift (require (found = checksum) reason)

def checkStage : List ((_ : String) × Leaf Content) → Export Content Unit
  | [] => pure ()
  | entry :: rest => do
    lift (privateFile entry.2)
    orFail (← act .sync)
    checkStage rest

def publish (p : Prepared Content) (stage : String) : Export Content Unit := do
  orFail (← act (.copyfile p.name stage))
  lift (privateLeaf (← directoryAt .exports stage) p.name)
  checkDigest py stage p.name p.checksum "local/NAS archive mismatch"
  orFail (← act (.write stage "backup_information.yml" p.metadata))
  orFail (← act (.write stage "archive.sha256" (py.ofText (checksumText p.checksum p.name))))
  checkStage (← directoryAt .exports stage).files.entries
  checkDigest py stage p.name p.checksum "private archive readback failed"
  orFail (← act .sync)
  orFail (← act (.rename stage p.target))
  orFail (← act .sync)
  checkDigest py p.target p.name p.checksum "published archive readback failed"

def unlinkAll (l : Location) (path : String) : List String → Export Content Unit
  | [] => pure ()
  | name :: rest => do
    orFail (← act (.unlink l path name))
    unlinkAll l path rest

def pruneOwned (l : Location) : List String → Export Content Unit
  | [] => pure ()
  | old :: rest => do
    unlinkAll l old (← directoryAt l old).files.keys
    orFail (← act (.rmdir l old))
    pruneOwned l rest

/-- `completions[:-keep]` -/
def dropLast {κ : Type} (keep : Nat) (completions : List (κ × String)) : List String :=
  (completions.take (completions.length - keep)).map Prod.snd

def retention (p : Prepared Content) : Export Content Unit := do
  pruneOwned .exports (dropLast 7 (sorted timestampKey (p.retained ++ [(p.timestamp, p.target)])))
  pruneOwned .dbArchives (dropLast 14 p.dbRetained)
  if p.dbRetained ≠ [] then orFail (← act .sync)
  orFail (← act .sync)
  orFail (← act .cleanup)

def removeStage (stage : String) : Export Content Unit := do
  match ← orFail (← act (.stat .exports stage)) with
  | some _ => orFail (← act (.rmtree stage))
  | none => pure ()

def main : Export Content Unit := do
  let p ← prepare py
  let stage ← orFail (← act (.mkdtemp p.target))
  (do publish py p stage; retention p : Export Content Unit).finallyDo (removeStage stage)

end ClusterState.Backup
