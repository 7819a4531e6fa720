import Mathlib

/-! # The recovery directory

`gitlab-exports` and `db-archives` hold one directory for each completed backup,
beside whatever else is there.
-/

namespace ClusterState.Backup

/-- What the programs take from Python: the contents of files, and digits. -/
structure Python (Content : Type) where
  /-- `hashlib.sha256(...).hexdigest()` -/
  sha256 : Content → String
  /-- `read_text`, if the content can be decoded. -/
  text : Content → Option String
  /-- `write_text` -/
  ofText : String → Content
  size : Content → Nat
  /-- The value of a character that `\d` matches. -/
  decimal : Char → Option Nat
  decimal_ascii : ∀ k < 10, decimal (Nat.digitChar k) = some k
  decimal_dot : decimal '.' = none
  decimal_underscore : decimal '_' = none
  decimal_return : decimal '\r' = none
  text_ofText : ∀ t : String, '\r' ∉ t.toList → text (ofText t) = some t
  sha256_hex : ∀ c, ∀ ch ∈ (sha256 c).toList, ch ∈ "0123456789abcdef".toList

structure Attributes where
  uid : Nat
  gid : Nat
  mode : Nat
  deriving DecidableEq

structure File (Content : Type) where
  attributes : Attributes
  content : Content

inductive Leaf (Content : Type) where
  | file (f : File Content)
  | other

structure Directory (Content : Type) where
  attributes : Attributes
  files : AList fun _ : String => Leaf Content

/-- What lies beside the backups. Anything but a directory is `other`. -/
inductive Entry (Content : Type) where
  | directory (d : Directory Content)
  | other

inductive Place (Content : Type) where
  | absent
  | directory (attributes : Attributes) (entries : AList fun _ : String => Entry Content)
  | other

inductive Location where
  | exports
  | dbArchives
  deriving DecidableEq

variable {Content : Type}

namespace Place

def lookup (p : Place Content) (name : String) : Option (Entry Content) :=
  match p with
  | directory _ entries => entries.lookup name
  | _ => none

def insert (p : Place Content) (name : String) (e : Entry Content) : Place Content :=
  match p with
  | directory attributes entries => directory attributes (entries.insert name e)
  | p => p

def erase (p : Place Content) (name : String) : Place Content :=
  match p with
  | directory attributes entries => directory attributes (entries.erase name)
  | p => p

def attributes? : Place Content → Option Attributes
  | directory attributes _ => some attributes
  | _ => none

variable {p : Place Content} {name name' : String} {e : Entry Content}

theorem lookup_insert (h : p.attributes?.isSome) : (p.insert name e).lookup name = some e := by
  cases p with
  | directory attributes entries => exact AList.lookup_insert entries
  | absent => cases h
  | other => cases h

theorem lookup_insert_ne (h : name' ≠ name) :
    (p.insert name e).lookup name' = p.lookup name' := by
  cases p with
  | directory attributes entries => exact AList.lookup_insert_ne h
  | absent => rfl
  | other => rfl

@[simp] theorem lookup_erase : (p.erase name).lookup name = none := by
  cases p with
  | directory attributes entries => exact AList.lookup_erase name entries
  | absent => rfl
  | other => rfl

theorem lookup_erase_ne (h : name' ≠ name) : (p.erase name).lookup name' = p.lookup name' := by
  cases p with
  | directory attributes entries => exact AList.lookup_erase_ne h
  | absent => rfl
  | other => rfl

@[simp] theorem attributes_insert : (p.insert name e).attributes? = p.attributes? := by
  cases p <;> rfl

@[simp] theorem attributes_erase : (p.erase name).attributes? = p.attributes? := by
  cases p <;> rfl

theorem attributes_of_lookup (h : p.lookup name = some e) : p.attributes?.isSome := by
  cases p with
  | directory attributes entries => rfl
  | absent => cases h
  | other => cases h

end Place

end ClusterState.Backup
