import ClusterState.Backup.Recovery

/-! # Recognising completed backups

A backup is completed when a directory has the name of one. `completed` and
`completed_db_archives` then insist on everything else: the exact files, who owns
them, their modes, the checksum, and the metadata.
-/

namespace ClusterState.Backup

inductive Failure where
  /-- A `ValueError` with its reason. -/
  | refused (reason : String)
  | osError
  deriving DecidableEq

def require (ok : Prop) [Decidable ok] (reason : String) : Except Failure Unit :=
  if ok then .ok () else .error (.refused reason)

/-! ## Patterns -/

section Patterns

variable {Content : Type} (py : Python Content)

/-- `\d{n}` at the front, with what it says. -/
def digits : Nat → Nat → List Char → Option (Nat × List Char)
  | 0, value, rest => some (value, rest)
  | n + 1, value, c :: rest =>
    match py.decimal c with
    | some v => digits n (10 * value + v) rest
    | none => none
  | _ + 1, _, [] => none

/-- `\d+` at the front. -/
def number (cs : List Char) : Option (List Char × List Char) :=
  match cs.span fun c => (py.decimal c).isSome with
  | ([], _) => none
  | (c :: more, rest) => some (c :: more, rest)

def literal (text : String) (cs : List Char) : Option (List Char) :=
  if text.toList <+: cs then some (cs.drop text.toList.length) else none

/-- The timestamp and the version, of all but the suffix of a `NAME`. -/
def matchStem (stem : String) : Option (Nat × String) := do
  let (timestamp, cs) ← digits py 10 0 stem.toList
  let (_, cs) ← digits py 4 0 (← literal "_" cs)
  let (_, cs) ← digits py 2 0 (← literal "_" cs)
  let (_, cs) ← digits py 2 0 (← literal "_" cs)
  let (major, cs) ← number py (← literal "_" cs)
  let (minor, cs) ← number py (← literal "." cs)
  let (patch, cs) ← number py (← literal "." cs)
  if cs = [] then
    some (timestamp, String.ofList (major ++ '.' :: minor ++ '.' :: patch))
  else none

def backupSuffix : String := "_gitlab_backup.tar"

/-- `removesuffix`, if there is the suffix. -/
def stem? (name : String) : Option String :=
  if backupSuffix.toList <:+ name.toList then
    some (String.ofList (name.toList.take (name.toList.length - backupSuffix.toList.length)))
  else none

/-- `NAME.fullmatch` -/
def matchName (name : String) : Option (Nat × String) := (stem? name).bind (matchStem py)

/-- `admission\.[a-zA-Z0-9]{12}` -/
def isAdmission (name : String) : Bool :=
  match literal "admission." name.toList with
  | some cs => cs.length = 12 && cs.all fun c => c.isAlphanum
  | none => false

theorem stem_append (stem : String) : stem? (stem ++ backupSuffix) = some stem := by
  rw [stem?, if_pos (by simp), String.toList_append, List.length_append, Nat.add_sub_cancel,
    List.take_left, String.ofList_toList]

theorem append_of_stem {name stem : String} (h : stem? name = some stem) :
    stem ++ backupSuffix = name := by
  rw [stem?] at h
  split at h
  · rename_i hsuffix
    cases h
    obtain ⟨front, hfront⟩ := hsuffix
    apply String.toList_injective
    rw [String.toList_append, String.toList_ofList, ← hfront]
    simp
  · cases h

@[simp] theorem matchName_append (stem : String) :
    matchName py (stem ++ backupSuffix) = matchStem py stem := by
  rw [matchName, stem_append, Option.bind_some]

theorem matchStem_hidden (name : String) : matchStem py ("." ++ name) = none := by
  have hdigits : digits py 10 0 ("." ++ name).toList = none := by
    rw [String.toList_append]
    change digits py 10 0 ('.' :: name.toList) = none
    rw [digits, py.decimal_dot]
  rw [matchStem, hdigits]
  rfl

theorem isAdmission_hidden (name : String) : isAdmission ("." ++ name) = false := by
  have hliteral : literal "admission." ("." ++ name).toList = none := by
    rw [literal, if_neg]
    rw [String.toList_append]
    change ¬ 'a' :: _ <+: '.' :: name.toList
    simp
  rw [isAdmission, hliteral]

end Patterns

/-! ## Times -/

structure Utc where
  year : Nat
  month : Nat
  day : Nat
  hour : Nat
  minute : Nat
  second : Nat
  deriving DecidableEq

namespace Utc

def daysInMonth (year month : Nat) : Nat :=
  if month = 2 then
    if year % 4 = 0 ∧ (year % 100 ≠ 0 ∨ year % 400 = 0) then 29 else 28
  else if month ∈ [4, 6, 9, 11] then 30 else 31

/-- What `datetime` accepts. -/
def Valid (t : Utc) : Prop :=
  1 ≤ t.year ∧ t.year ≤ 9999 ∧ 1 ≤ t.month ∧ t.month ≤ 12 ∧ 1 ≤ t.day ∧
    t.day ≤ daysInMonth t.year t.month ∧ t.hour ≤ 23 ∧ t.minute ≤ 59 ∧ t.second ≤ 59

instance (t : Utc) : Decidable t.Valid := by
  unfold Valid
  infer_instance

def key (t : Utc) : List Nat := [t.year, t.month, t.day, t.hour, t.minute, t.second]

end Utc

section Strptime

variable {Content : Type} (py : Python Content)

/-- `[lo-hi]` for two digits. -/
def range (lo hi : Nat) (c : Char) : Option Nat :=
  if '0'.toNat + lo ≤ c.toNat ∧ c.toNat ≤ '0'.toNat + hi then some (c.toNat - '0'.toNat) else none

def space (c : Char) : Option Nat := if c = ' ' then some 0 else none

/-- The value of characters that match a sequence of classes. -/
def sequence : List (Char → Option Nat) → Nat → List Char → Option Nat
  | [], value, [] => some value
  | cls :: more, value, c :: cs =>
    match cls c with
    | some v => sequence more (10 * value + v) cs
    | none => none
  | _, _, _ => none

def alternatives (alts : List (List (Char → Option Nat))) (cs : List Char) : Option Nat :=
  alts.findSome? fun classes => sequence classes 0 cs

/-- A field up to the literal that follows it in the format. -/
def fieldUpTo (stop : Char → Bool) (alts : List (List (Char → Option Nat))) (cs : List Char) :
    Option (Nat × List Char) :=
  match cs.span fun c => !stop c with
  | (text, _ :: rest) => (alternatives alts text).map fun value => (value, rest)
  | (_, []) => none

/-- `datetime.strptime(text, 'observed_at=%Y-%m-%dT%H:%M:%SZ')` -/
def strptime (text : String) : Option Utc := do
  let d := py.decimal
  let cs ← literal "observed_at=" text.toList
  let (year, cs) ← fieldUpTo (· == '-') [[d, d, d, d]] cs
  let (month, cs) ← fieldUpTo (· == '-') [[range 1 1, range 0 2], [range 0 0, range 1 9], [range 1 9]] cs
  let (day, cs) ← fieldUpTo (fun c => c == 'T' || c == 't')
    [[range 3 3, range 0 1], [range 1 2, d], [range 0 0, range 1 9], [range 1 9],
      [space, range 1 9]] cs
  let (hour, cs) ← fieldUpTo (· == ':') [[range 2 2, range 0 3], [range 0 1, d], [d]] cs
  let (minute, cs) ← fieldUpTo (· == ':') [[range 0 5, d], [d]] cs
  let (second, cs) ← fieldUpTo (fun c => c == 'Z' || c == 'z')
    [[range 6 6, range 0 1], [range 0 5, d], [d]] cs
  if cs = [] ∧ Utc.Valid ⟨year, month, day, hour, minute, second⟩ then
    some ⟨year, month, day, hour, minute, second⟩
  else none

end Strptime

/-! ## Lines -/

def isLineBreak (c : Char) : Bool :=
  c ∈ ['\n', '\r', '\x0b', '\x0c', '\x1c', '\x1d', '\x1e', '\u0085', '\u2028', '\u2029']

/-- `splitlines` of a text without `\r`, from a line that has begun. -/
def splitLinesFrom : List Char → List Char → List String
  | [], [] => []
  | c :: begun, [] => [String.ofList (c :: begun).reverse]
  | begun, c :: cs =>
    if isLineBreak c then String.ofList begun.reverse :: splitLinesFrom [] cs
    else splitLinesFrom (c :: begun) cs

def splitLines (text : String) : List String := splitLinesFrom [] text.toList

/-! ## Completed backups -/

section Completed

variable {Content : Type} (py : Python Content)

def unsafeNamespace : String := "unsafe owned namespace permissions/type"

def privateDirectory (a : Attributes) : Except Failure Unit :=
  require (a = ⟨1000, 1000, 0o700⟩) unsafeNamespace

def privateFile : Leaf Content → Except Failure Unit
  | .file f => require (f.attributes = ⟨1000, 1000, 0o600⟩) unsafeNamespace
  | .other => .error (.refused unsafeNamespace)

def content (d : Directory Content) (name : String) : Except Failure Content :=
  match d.files.lookup name with
  | some (.file f) => .ok f.content
  | _ => .error .osError

def digest (d : Directory Content) (name : String) : Except Failure String :=
  (content d name).map py.sha256

def readText (d : Directory Content) (name : String) : Except Failure String := do
  match py.text (← content d name) with
  | some text => .ok text
  | none => .error (.refused "invalid start byte")

def exactFiles (d : Directory Content) (expected : List String) (reason : String) :
    Except Failure Unit := do
  privateDirectory d.attributes
  require (d.files.keys ⊆ expected ∧ expected ⊆ d.files.keys) reason
  d.files.entries.forM fun entry => privateFile entry.2

def exportFiles (name : String) : List String :=
  [name ++ backupSuffix, "archive.sha256", "backup_information.yml"]

def checksumText (checksum name : String) : String := checksum ++ "  " ++ name ++ "\n"

/-- One path in the loop of `completed`. -/
def completedExport (name : String) : Entry Content → Except Failure (Option (Nat × String))
  | .other => .ok none
  | .directory d =>
    match matchName py (name ++ backupSuffix) with
    | none => .ok none
    | some (timestamp, _) => do
      exactFiles d (exportFiles name) "unexpected completed export contents"
      let text ← readText py d "archive.sha256"
      let checksum ← digest py d (name ++ backupSuffix)
      require (text = checksumText checksum (name ++ backupSuffix)) "retained export readback failed"
      .ok (some (timestamp, name))

def archiveFiles : List String := ["database.dump", "database.sha256", "archive.list", "admission.txt"]

def observedAt (text : String) : Except Failure Utc := do
  let fields := splitLines text
  require (fields.length = 6 ∧ "observed_at=".toList <+: (fields.getD 4 "").toList)
    "unknown admission metadata"
  match strptime py (fields.getD 4 "") with
  | some observed => .ok observed
  | none => .error (.refused "time data does not match format")

/-- One path in the loop of `completed_db_archives`. -/
def completedArchive (name : String) (entry : Entry Content) :
    Except Failure (Option (Utc × String)) :=
  if isAdmission name then
    match entry with
    | .other => .error (.refused unsafeNamespace)
    | .directory d => do
      exactFiles d archiveFiles "unknown completed admission contents"
      let text ← readText py d "database.sha256"
      let checksum ← digest py d "database.dump"
      let dump ← content d "database.dump"
      let listing ← content d "archive.list"
      require (text = checksumText checksum "database.dump" ∧ 0 < py.size dump ∧
        0 < py.size listing) "retained admission readback failed"
      let observed ← observedAt py (← readText py d "admission.txt")
      .ok (some (observed, name))
  else .ok none

/-- `sorted` -/
def sorted {κ : Type} (key : κ → List Nat) (found : List (κ × String)) : List (κ × String) :=
  found.insertionSort fun a b => key a.1 < key b.1 ∨ key a.1 = key b.1 ∧ a.2 ≤ b.2

def timestampKey (timestamp : Nat) : List Nat := [timestamp]

def entries : Place Content → List ((_ : String) × Entry Content)
  | .directory _ entries => entries.entries
  | _ => []

def completed (exports : Place Content) : Except Failure (List (Nat × String)) := do
  let found ← (entries exports).mapM fun entry => completedExport py entry.1 entry.2
  .ok (sorted timestampKey found.reduceOption)

def completedDbArchives : Place Content → Except Failure (List (Utc × String))
  | .absent => .ok []
  | .other => .error (.refused unsafeNamespace)
  | .directory attributes entries => do
    privateDirectory attributes
    let found ← entries.entries.mapM fun entry => completedArchive py entry.1 entry.2
    .ok (sorted Utc.key found.reduceOption)

end Completed

end ClusterState.Backup
