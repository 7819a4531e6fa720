import ClusterState.Concurrency.Evaluation
import ClusterState.Cosi.Objects

/-! # Deleting a bucket

`DriverDeleteBucket` removes the entry of the bucket and then its location in the
configuration of the filer. Every request goes to the filer over a connection of its own.
-/

namespace ClusterState.Cosi.Buckets

open Concurrency

/-- `filer.FilerConf`: locations by their prefixes, and the text that they are stored as. -/
structure FilerConf (Conf Bytes Location : Type) where
  /-- `NewFilerConf` -/
  new : Conf
  /-- `LoadFromBytes`, into a new configuration. -/
  loadFromBytes : Bytes → Except String Conf
  toText : Conf → Except String Bytes
  getLocationConf : Conf → String → Option Location
  deleteLocationConf : Conf → String → Conf
  get_new : ∀ location, getLocationConf new location = none
  get_delete : ∀ fc location location', getLocationConf (deleteLocationConf fc location) location' =
    if location' = location then none else getLocationConf fc location'
  load_toText : ∀ fc data, toText fc = .ok data → ∃ fc', loadFromBytes data = .ok fc' ∧
    ∀ location, getLocationConf fc' location = getLocationConf fc location

/-! ## Requests -/

inductive Call (Bytes : Type) where
  | dial
  | deleteEntry (directory name : String)
  | lookupDirectoryEntry (directory name : String)
  | updateEntry (directory name : String) (content : Bytes)
  | createEntry (directory name : String) (content : Bytes)

variable {Conf Bytes Location : Type} {ε : Type}

/-- An entry that is found may be without content. -/
@[reducible] def Call.Value : Call Bytes → Type
  | .dial => Except Status Unit
  | .deleteEntry _ _ => Except Status Unit
  | .lookupDirectoryEntry _ _ => Except Status (Option Bytes)
  | .updateEntry _ _ _ => Except Status Unit
  | .createEntry _ _ _ => Except Status Unit

abbrev Rpc (Bytes ε : Type) := Program (Call Bytes) Call.Value ε

def call (c : Call Bytes) : Rpc Bytes ε c.Value := .ask c .done

/-- `strings.Contains(err.Error(), "no entry is found")` -/
def noEntryIsFound (err : Status) : Prop := "no entry is found".toList <:+: err.text.toList

instance (err : Status) : Decidable (noEntryIsFound err) :=
  inferInstanceAs (Decidable (_ <:+: _))

def isNotFoundError (err : Status) : Prop := err.code = .notFound ∨ noEntryIsFound err

instance (err : Status) : Decidable (isNotFoundError err) :=
  inferInstanceAs (Decidable (_ ∨ _))

def filerBucketsPath : String := "/buckets"
def directoryEtcSeaweedFS : String := "/etc/seaweedfs"
def filerConfName : String := "filer.conf"

def bucketLocation (id : String) : String := filerBucketsPath ++ "/" ++ id ++ "/"

def withFilerClient (fn : Rpc Bytes String Unit) : Rpc Bytes String Unit := do
  match ← call .dial with
  | .error err => throw ("dial filer: " ++ err.text)
  | .ok () => fn

/-! ## The configuration of the filer -/

section Driver

variable (F : FilerConf Conf Bytes Location)

def readFilerConf : Rpc Bytes String Conf := do
  match ← call (.lookupDirectoryEntry directoryEtcSeaweedFS filerConfName) with
  | .error err =>
    if noEntryIsFound err then pure F.new else throw ("read filer conf: " ++ err.text)
  | .ok none => pure F.new
  | .ok (some content) =>
    match F.loadFromBytes content with
    | .error err => throw ("parse filer conf: " ++ err)
    | .ok fc => pure fc

def saveFilerConf (fc : Conf) : Rpc Bytes String Unit := do
  match F.toText fc with
  | .error err => throw ("serialize filer conf: " ++ err)
  | .ok data =>
    match ← call (.updateEntry directoryEtcSeaweedFS filerConfName data) with
    | .ok () => pure ()
    | .error err =>
      if noEntryIsFound err then
        match ← call (.createEntry directoryEtcSeaweedFS filerConfName data) with
        | .ok () => pure ()
        | .error err => throw err.text
      else throw err.text

def deleteLocation (id : String) : Rpc Bytes String Unit := do
  let fc ← readFilerConf F
  if (F.getLocationConf fc (bucketLocation id)).isNone then pure ()
  else saveFilerConf F (F.deleteLocationConf fc (bucketLocation id))

def deleteBucket (id : String) : Rpc Bytes String Unit := withFilerClient do
  match ← call (.deleteEntry filerBucketsPath id) with
  | .error err => if isNotFoundError err then pure () else throw err.text
  | .ok () => deleteLocation F id

def driverDeleteBucket (id : String) : Rpc Bytes Status Unit := do
  match ← (deleteBucket F id).outcome with
  | .error err => throw ⟨.internal, err⟩
  | .ok () => pure ()

end Driver

/-! ## The filer -/

/-- The entries by directory and name, each with its content. -/
abbrev Entries (Bytes : Type) := AList fun _ : String × String => Option Bytes

/-- What fails at the filer, with errors that do not say that an entry is missing. `absent` is the
answer where there is none. -/
structure Outage extends Failures {status : Status // ¬ isNotFoundError status} where
  absent : Status
  absent_text : noEntryIsFound absent

structure Filer (Bytes : Type) where
  entries : Entries Bytes
  calls : Nat

namespace Outage

variable (o : Outage)

def dial (s : Filer Bytes) : Except Status Unit × Filer Bytes :=
  match o.failure s.calls with
  | some failure => (.error failure.error.1, ⟨s.entries, s.calls + 1⟩)
  | none => (.ok (), ⟨s.entries, s.calls + 1⟩)

def lookup (s : Filer Bytes) (key : String × String) : Except Status (Option Bytes) × Filer Bytes :=
  match o.failure s.calls, s.entries.lookup key with
  | some failure, _ => (.error failure.error.1, ⟨s.entries, s.calls + 1⟩)
  | none, some content => (.ok content, ⟨s.entries, s.calls + 1⟩)
  | none, none => (.error o.absent, ⟨s.entries, s.calls + 1⟩)

def change (s : Filer Bytes) (there : Bool) (entries : Entries Bytes) :
    Except Status Unit × Filer Bytes :=
  match o.failure s.calls with
  | some failure =>
    (.error failure.error.1, ⟨if failure.made && there then entries else s.entries, s.calls + 1⟩)
  | none =>
    if there then (.ok (), ⟨entries, s.calls + 1⟩) else (.error o.absent, ⟨s.entries, s.calls + 1⟩)

def respond : (c : Call Bytes) → Filer Bytes → Option (c.Value × Filer Bytes)
  | .dial, s => some (o.dial s)
  | .deleteEntry directory name, s =>
    some (o.change s (s.entries.lookup (directory, name)).isSome (s.entries.erase (directory, name)))
  | .lookupDirectoryEntry directory name, s => some (o.lookup s (directory, name))
  | .updateEntry directory name content, s =>
    some (o.change s (s.entries.lookup (directory, name)).isSome
      (s.entries.insert (directory, name) (some content)))
  | .createEntry directory name content, s =>
    some (o.change s true (s.entries.insert (directory, name) (some content)))

def calm : Outage where
  toFailures := .calm
  absent := ⟨.notFound, "no entry is found in filer store"⟩
  absent_text := by decide

end Outage

section Attempts

variable (F : FilerConf Conf Bytes Location) (id : String)

def attempt (o : Outage) (entries : Entries Bytes) : Option (Except Status Unit) × Filer Bytes :=
  (driverDeleteBucket F id).eval o.respond ⟨entries, 0⟩

def attempts (entries : Entries Bytes) (outages : List Outage) : Entries Bytes :=
  outages.foldl (fun entries o => (attempt F id o entries).2.entries) entries

def location (entries : Entries Bytes) (name : String) : Option Location :=
  match entries.lookup (directoryEtcSeaweedFS, filerConfName) with
  | some (some content) =>
    match F.loadFromBytes content with
    | .ok fc => F.getLocationConf fc name
    | .error _ => none
  | _ => none

/-- The bucket is gone, with its location, and the locations of others are as they were. -/
structure Deleted (before entries : Entries Bytes) : Prop where
  entry : entries.lookup (filerBucketsPath, id) = none
  location : location F entries (bucketLocation id) = none
  others : ∀ name, name ≠ bucketLocation id → Buckets.location F entries name =
    Buckets.location F before name

def Resumable (entries : Entries Bytes) : Prop :=
  entries.lookup (filerBucketsPath, id) ≠ none ∨ location F entries (bucketLocation id) = none

end Attempts

end ClusterState.Cosi.Buckets
