import ClusterState.CacheRetention.Walking
import ClusterState.Concurrency.Evaluation

/-! # File trees

A file system maps names to inodes, directory by directory. A forest is the content of
one directory, of any depth, in the order of the names. Files and links may have
several names, in one tree or in several.
-/

namespace ClusterState.CacheRetention

open ClusterState.Data.PythonText Concurrency

structure FileSystem where
  attributes : Identity → Attributes
  entries : Identity → List (Name × Identity)
  /-- What is in a file, and where a link leads. -/
  data : Identity → List UInt8
  /-- The directories that are opened by their paths. -/
  directories : Path → Option Identity

namespace FileSystem

def stat (fs : FileSystem) (i : Identity) : Metadata where
  device := i.1
  ino := i.2
  toAttributes := fs.attributes i

def lookup (fs : FileSystem) (d : Identity) (name : Name) : Option Identity := (fs.entries d).lookup name

end FileSystem

/-- What is not determined by the names and inodes: the order in which a directory is listed,
and what happens to a directory and to an inode when an entry is removed. -/
structure Kernel where
  listed : FileSystem → Identity → List Name
  touched : FileSystem → Identity → Attributes
  changed : FileSystem → Identity → Int
  listed_perm : ∀ fs d, (listed fs d).Perm ((fs.entries d).map Prod.fst)
  touched_mode : ∀ fs d, (touched fs d).mode = (fs.attributes d).mode

/-- The entry is gone. Its inode has lost a link, which shows in its `ctime`. -/
def FileSystem.drop (fs : FileSystem) (K : Kernel) (d : Identity) (name : Name) (i : Identity) :
    FileSystem where
  attributes := Function.update
    (Function.update fs.attributes i { fs.attributes i with ctime := K.changed fs i }) d (K.touched fs d)
  entries := Function.update fs.entries d ((fs.entries d).filter fun e => e.1 ≠ name)
  data := fs.data
  directories := fs.directories

def respond (K : Kernel) : (r : Syscall Identity) → FileSystem →
    Option (Except Failure r.Result × FileSystem)
  | .openParent root, fs =>
    match fs.directories root with
    | some d => some (.ok d, fs)
    | none => some (.error .gone, fs)
  | .statAt d name, fs =>
    match fs.lookup d name with
    | some i => some (.ok (fs.stat i), fs)
    | none => some (.error .gone, fs)
  | .openAt d name, fs =>
    match fs.lookup d name with
    | some i =>
      if (fs.stat i).isDirectory then some (.ok i, fs)
      else some (.error (.other "not a directory"), fs)
    | none => some (.error .gone, fs)
  | .fstat d, fs => some (.ok (fs.stat d), fs)
  | .listdir d, fs => some (.ok (K.listed fs d), fs)
  | .scandir d, fs => some (.ok (K.listed fs d), fs)
  | .rmdir d name, fs =>
    match fs.lookup d name with
    | some i =>
      if (fs.stat i).isDirectory && (fs.entries i).isEmpty then some (.ok (), fs.drop K d name i)
      else some (.error (.other "not an empty directory"), fs)
    | none => some (.error .gone, fs)
  | .unlink d name, fs =>
    match fs.lookup d name with
    | some i =>
      if (fs.stat i).isDirectory then some (.error (.other "is a directory"), fs)
      else some (.ok (), fs.drop K d name i)
    | none => some (.error .gone, fs)

/-! ## Forests -/

inductive Forest where
  | nil
  | leaf (name : Name) (i : Identity) (rest : Forest)
  | directory (name : Name) (i : Identity) (children rest : Forest)

namespace Forest

def top : Forest → List (Name × Identity)
  | nil => []
  | leaf name i rest => (name, i) :: rest.top
  | directory name i _ rest => (name, i) :: rest.top

def names (f : Forest) : List Name := f.top.map Prod.fst

@[simp] theorem names_leaf {name : Name} {i : Identity} {rest : Forest} :
    (leaf name i rest).names = name :: rest.names := rfl

@[simp] theorem names_directory {name : Name} {i : Identity} {children rest : Forest} :
    (directory name i children rest).names = name :: rest.names := rfl

def directories : Forest → List Identity
  | nil => []
  | leaf _ _ rest => rest.directories
  | directory _ i children rest => i :: children.directories ++ rest.directories

def leaves : Forest → List Identity
  | nil => []
  | leaf _ i rest => i :: rest.leaves
  | directory _ _ children rest => children.leaves ++ rest.leaves

def depth : Forest → Nat
  | nil => 0
  | leaf _ _ rest => max 1 rest.depth
  | directory _ _ children rest => max (children.depth + 1) rest.depth

def Ascends : Forest → Prop
  | nil => True
  | leaf name _ rest => (∀ name' ∈ rest.names, name < name') ∧ rest.Ascends
  | directory name _ children rest =>
    (∀ name' ∈ rest.names, name < name') ∧ children.Ascends ∧ rest.Ascends

def All (P : Identity → Prop) (f : Forest) : Prop :=
  (∀ i ∈ f.directories, P i) ∧ ∀ i ∈ f.leaves, P i

end Forest

/-- The directories of the forest have its entries, and are directories. -/
def FileSystem.Shows (fs : FileSystem) : Forest → Prop
  | .nil => True
  | .leaf _ i rest => (fs.stat i).isDirectory = false ∧ fs.Shows rest
  | .directory _ i children rest => (fs.stat i).isDirectory = true ∧
      (fs.entries i).Perm children.top ∧ fs.Shows children ∧ fs.Shows rest

end ClusterState.CacheRetention
