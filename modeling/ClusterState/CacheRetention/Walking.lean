import ClusterState.CacheRetention.MountIds
import ClusterState.Concurrency.Program

/-! # Walking over a candidate

`snapshot` reads a file tree and `remove_tree` removes it. Both go from directory to
directory by descriptors and never follow a link. The trees may be of any depth, so
both stop when their fuel is spent.
-/

namespace ClusterState.CacheRetention

open ClusterState.Data.PythonText Concurrency

/-- A code point of a Python string, which may be a lone surrogate: in a file name it stands for a
byte that is not UTF-8. -/
abbrev CodePoint := Fin 0x110000

def CodePoint.ofChar (c : Char) : CodePoint := ⟨c.toNat, c.valid.elim (lt_trans · (by decide)) And.right⟩

/-- The character, unless it is a surrogate. -/
def CodePoint.char? (c : CodePoint) : Option Char :=
  if c.val.isValidChar then some (Char.ofNat c.val) else none

def CodePoint.isDigit (c : CodePoint) : Bool := 0x30 ≤ c.val && c.val ≤ 0x39

abbrev Name := List CodePoint

abbrev Path := List CodePoint

def codePoints (s : String) : List CodePoint := s.toList.map .ofChar

def slash : CodePoint := .ofChar '/'

def dot : CodePoint := .ofChar '.'

/-- A path in a message, where a surrogate is not shown. -/
def shown (path : Path) : Text := path.filterMap CodePoint.char?

/-- What `stat` says of an inode, with its times in nanoseconds. -/
structure Attributes where
  mode : Nat
  uid : Nat
  gid : Nat
  size : Nat
  mtime : Int
  ctime : Int

structure Metadata extends Stat, Attributes

/-- `S_IFMT` -/
def Attributes.format (a : Attributes) : Nat := a.mode &&& 0o170000

def Attributes.isDirectory (a : Attributes) : Bool := a.format == 0o040000

def Attributes.isRegular (a : Attributes) : Bool := a.format == 0o100000

def Attributes.isSymlink (a : Attributes) : Bool := a.format == 0o120000

/-- A path below one of the roots, whose parent is the root. -/
structure Target where
  root : Path
  name : Name
  deriving DecidableEq

/-- `str(path)` -/
def Target.path (target : Target) : Path := target.root ++ slash :: target.name

def uvRoot : Target := ⟨codePoints "/var/lib/ci-cache-nocow", codePoints "uv"⟩

/-! ## Requests -/

inductive Syscall (Fd : Type) where
  | openParent (root : Path)
  | statAt (parent : Fd) (name : Name)
  | openAt (parent : Fd) (name : Name)
  | fstat (fd : Fd)
  | listdir (fd : Fd)
  | scandir (fd : Fd)
  | rmdir (parent : Fd) (name : Name)
  | unlink (parent : Fd) (name : Name)

abbrev Syscall.Result {Fd : Type} : Syscall Fd → Type
  | openParent _ => Fd
  | statAt _ _ => Metadata
  | openAt _ _ => Fd
  | fstat _ => Metadata
  | listdir _ => List Name
  | scandir _ => List Name
  | rmdir _ _ => Unit
  | unlink _ _ => Unit

abbrev Walk (Fd : Type) := Program (Syscall Fd) (fun r => Except Failure r.Result) Failure

variable {Fd : Type}

def perform (r : Syscall Fd) : Walk Fd r.Result := .ask r .ofExcept

def refuse {α : Type} (message : String) : Walk Fd α := throw (.refuse message)

/-! ## What an entry may be -/

/-- What both walks must not touch, and whether they may come across symbolic links. -/
structure Limits where
  device : Device
  busy : List Identity
  mounted : List Identity
  links : Bool

local instance lawfulBEq_identity : LawfulBEq Identity := inferInstance

def checkEntry (limits : Limits) (symlinkLeaf : Bool) (st : Metadata) : Except Failure Unit :=
  if st.identity ∈ limits.busy ∨ st.identity ∈ limits.mounted then
    .error (.refuse "open/mounted entry")
  else if st.device ≠ limits.device ∨
      ¬(st.isDirectory || st.isRegular || symlinkLeaf && st.isSymlink) = true then
    .error (.refuse "non-ordinary or cross-device entry")
  else .ok ()

/-! ## The records -/

structure Python where
  /-- `str.isprintable` of a character that is not an ASCII character. -/
  printable : Char → Bool
  /-- The digest of the encoded text. -/
  sha256 : Text → Text
  /-- A time in seconds, from nanoseconds. -/
  seconds : Int → ℚ

def hexDigits (width n : Nat) : Text := (List.range width).reverse.map fun i => (n / 16 ^ i % 16).digitChar

def escapeChar (py : Python) (quote c : Char) : Text :=
  if c = quote ∨ c = '\\' then ['\\', c]
  else if c = '\t' then ['\\', 't']
  else if c = '\n' then ['\\', 'n']
  else if c = '\r' then ['\\', 'r']
  else if c.toNat < 0x20 ∨ c.toNat = 0x7f then '\\' :: 'x' :: hexDigits 2 c.toNat
  else if c.toNat < 0x7f ∨ py.printable c then [c]
  else if c.toNat ≤ 0xff then '\\' :: 'x' :: hexDigits 2 c.toNat
  else if c.toNat ≤ 0xffff then '\\' :: 'u' :: hexDigits 4 c.toNat
  else '\\' :: 'U' :: hexDigits 8 c.toNat

def escapePoint (py : Python) (quote : Char) (c : CodePoint) : Text :=
  match c.char? with
  | some c => escapeChar py quote c
  | none => '\\' :: 'u' :: hexDigits 4 c.val

def quoteOf (t : List CodePoint) : Char :=
  if t.contains (.ofChar '\'') && !t.contains (.ofChar '"') then '"' else '\''

/-- `repr` of a string. -/
def reprText (py : Python) (t : List CodePoint) : Text :=
  quoteOf t :: t.flatMap (escapePoint py (quoteOf t)) ++ [quoteOf t]

def reprNat (n : Nat) : Text := Nat.toDigits 10 n

def reprInt (z : Int) : Text := if z < 0 then '-' :: reprNat z.natAbs else reprNat z.natAbs

def reprTuple (items : List Text) : Text := '(' :: ", ".toList.intercalate items ++ [')']

/-- `os.makedev` -/
def deviceNumber (device : Device) : Nat :=
  (device.1 &&& 0xfffff000) <<< 32 ||| (device.1 &&& 0xfff) <<< 8 |||
    (device.2 &&& 0xffffff00) <<< 12 ||| (device.2 &&& 0xff)

/-- `str` of a relative path, from its parts. -/
def relativePath (relative : List Name) : Path :=
  if relative = [] then [dot] else [slash].intercalate relative

def record (py : Python) (relative : List Name) (st : Metadata) : Text :=
  reprTuple [reprText py (relativePath relative), reprTuple [
    reprTuple [reprNat (deviceNumber st.device), reprNat st.ino], reprNat st.mode, reprNat st.uid,
    reprNat st.gid, reprNat st.size, reprInt st.mtime,
    if st.isRegular then "None".toList else reprInt st.ctime]]

/-! ## `snapshot` -/

structure Tally where
  text : Text
  rootId : Option Identity
  latestFile : Option ℚ
  latestDirectory : WithBot ℚ

def Tally.empty : Tally := ⟨[], none, none, ⊥⟩

def Tally.note (py : Python) (relative : List Name) (st : Metadata) (tally : Tally) : Tally :=
  { tally with
    text := tally.text ++ record py relative st
    rootId := if relative = [] then some st.identity else tally.rootId }

def Tally.directory (py : Python) (st : Metadata) (tally : Tally) : Tally :=
  { tally with latestDirectory := max tally.latestDirectory (py.seconds st.mtime) }

/-- The age of a leaf. A link counts from its creation. -/
def leafAge (py : Python) (st : Metadata) : ℚ :=
  if st.isSymlink then max (py.seconds st.mtime) (py.seconds st.ctime) else py.seconds st.mtime

def Tally.leaf (py : Python) (st : Metadata) (tally : Tally) : Tally :=
  { tally with
    latestFile := match tally.latestFile with
      | none => some (leafAge py st)
      | some latest => some (max latest (leafAge py st)) }

def sorted (names : List Name) : List Name := names.insertionSort (· ≤ ·)

def visit (py : Python) (limits : Limits) : Nat → Fd → Name → List Name → Tally → Walk Fd Tally
  | 0, _, _, _, _ => .halt
  | fuel + 1, parent, name, relative, tally => do
    let st ← perform (.statAt parent name)
    .ofExcept (checkEntry limits (limits.links && relative ≠ []) st)
    let tally := tally.note py relative st
    if st.isDirectory then
      let fd ← perform (.openAt parent name)
      let opened ← perform (.fstat fd)
      if opened.identity = st.identity then
        let children ← perform (.listdir fd)
        (sorted children).foldlM
          (fun tally child => visit py limits fuel fd child (relative ++ [child]) tally)
          (tally.directory py st)
      else refuse "directory replaced during snapshot"
    else return tally.leaf py st

abbrev Proof := Text × Option Identity

def Tally.proof (py : Python) (tally : Tally) : Proof := (py.sha256 tally.text, tally.rootId)

/-- Empty trees have the age of their directories. -/
def Tally.latest (tally : Tally) : WithBot ℚ :=
  match tally.latestFile with
  | none => tally.latestDirectory
  | some latest => latest

/-- `snapshot`, where `limits.links` says `workspace or native_uv`. -/
def snapshot (py : Python) (fuel : Nat) (nativeUv : Bool) (target : Target) (limits : Limits) :
    Walk Fd (Proof × WithBot ℚ) := do
  if nativeUv && target ≠ uvRoot then refuse "wrong UV proof root"
  else
    let parent ← perform (.openParent target.root)
    let tally ← visit py limits fuel parent target.name [] .empty
    return (tally.proof py, tally.latest)

/-! ## `remove_tree` -/

def Metadata.keys (st : Metadata) : Identity × Nat × Nat × Nat × Nat × Int × Int :=
  (st.identity, st.mode, st.uid, st.gid, st.size, st.mtime, st.ctime)

def remove (limits : Limits) : Nat → Fd → Name → Option Identity → Walk Fd Unit
  | 0, _, _, _ => .halt
  | fuel + 1, parent, name, expected => do
    let st ← perform (.statAt parent name)
    .ofExcept (checkEntry limits (limits.links && expected.isNone) st)
    if expected.isSome ∧ expected ≠ some st.identity then refuse "candidate replaced before deletion"
    else if st.isDirectory then
      let fd ← perform (.openAt parent name)
      let opened ← perform (.fstat fd)
      if opened.identity = st.identity then
        let children ← perform (.scandir fd)
        children.forM fun child => remove limits fuel fd child none
        let current ← perform (.statAt parent name)
        .ofExcept (checkEntry limits false current)
        if current.identity = st.identity ∧ current.mode = st.mode then perform (.rmdir parent name)
        else refuse "directory replaced during deletion"
      else refuse "directory replaced during deletion"
    else
      let current ← perform (.statAt parent name)
      if current.keys = st.keys then perform (.unlink parent name)
      else refuse "file changed during deletion"

/-- `remove_tree`, where `limits.links` says `workspace`. -/
def removeTree (fuel : Nat) (target : Target) (limits : Limits) (expectedRoot : Option Identity) :
    Walk Fd Unit := do
  let parent ← perform (.openParent target.root)
  remove limits fuel parent target.name expectedRoot

end ClusterState.CacheRetention
