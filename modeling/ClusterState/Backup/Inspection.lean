import ClusterState.Backup.Site
import ClusterState.Data.SlashPath

/-! # Inspecting a native archive

No two members of an archive may have the same key, which is the name without one `./` in front
and without the slashes at the end. A path can still be spelled in many ways.
-/

namespace ClusterState.Backup

open Data.SlashPath

inductive MemberKind where
  | file
  | directory
  | other
  deriving DecidableEq

/-- A member of an archive inside of a member. -/
structure Inner where
  name : Text
  kind : MemberKind
  readable : Bool

/-- What `gzip` makes of a member, and `tarfile` of that. -/
structure Unpacked where
  size : Nat
  members : Option (List Inner)

structure Member (Content : Type) where
  name : Text
  kind : MemberKind
  size : Nat
  /-- `extractfile` does not return `None`. -/
  extractable : Bool
  content : Option Content
  unpacked : Option Unpacked

/-- An archive as `tarfile` reads it; `complete` says that it has raised nothing by the end. -/
structure Archive (Content : Type) where
  size : Nat
  endBlocks : Bool
  members : List (Member Content)
  complete : Bool

/-- `PurePosixPath(name).parts`, of a relative name. -/
def pathParts (name : Text) : List Text := (components name).filter fun c => c ≠ [] ∧ c ≠ ['.']

def memberKey (name : Text) : Text :=
  trimRight (if "./".toList <+: name then name.drop 2 else name)

def SafeName (name : Text) : Prop :=
  name.head? ≠ some '/' ∧ ['.', '.'] ∉ pathParts name ∧ '\\' ∉ name ∧ name.all fun c => ' ' ≤ c

instance (name : Text) : Decidable (SafeName name) := inferInstanceAs (Decidable (_ ∧ _))

def safeMember (name : Text) (kind : MemberKind) : Except Failure Text := do
  require (SafeName name ∧ kind ≠ .other) "unsafe tar member"
  pure (memberKey name)

variable {Content : Type}

structure Inspected (Content : Type) where
  seen : List Text
  files : List Text
  metadata : Option Content

def consumeInner (item : Inner) : Except Failure Unit := do
  let _ ← safeMember item.name item.kind
  if item.kind = .file ∧ item.readable = false then throw .osError

/-- A regular file is read to its end; the metadata are kept. -/
def inspectFile (component : Bool) (key : Text) (m : Member Content) : Except Failure (Option Content) := do
  if m.extractable = false then throw (.refused "unreadable regular member")
  if key = "backup_information.yml".toList then
    require (m.size ≤ 16384) "oversized metadata"
    match m.content with
    | some content => pure (some content)
    | none => throw .osError
  else if component then
    match m.unpacked.bind Unpacked.members with
    | some items =>
      items.forM consumeInner
      pure none
    | none => throw .osError
  else if "db/".toList <+: key ∧ ".sql.gz".toList <:+ key then
    match m.unpacked with
    | some unpacked =>
      require (unpacked.size > 0) "empty database payload"
      pure none
    | none => throw .osError
  else
    match m.content with
    | some _ => pure none
    | none => throw .osError

def isComponent (key : Text) : Bool := '/' ∉ key ∧ ".tar.gz".toList <:+ key

def checkPayload (key : Text) (m : Member Content) : Except Failure Unit :=
  if isComponent key ∨ key = "db/database.sql.gz".toList ∨ key = "backup_information.yml".toList then
    require (m.kind = .file ∧ m.size > 0) "native payload must be a nonempty regular file"
  else pure ()

def inspectMember (s : Inspected Content) (m : Member Content) : Except Failure (Inspected Content) := do
  let key ← safeMember m.name m.kind
  require (key ∉ s.seen) "duplicate tar member"
  checkPayload key m
  if m.kind ≠ .file then pure { s with seen := key :: s.seen }
  else
    let metadata ← inspectFile (isComponent key) key m
    pure ⟨key :: s.seen, key :: s.files, metadata.or s.metadata⟩

def inspectArchive (archive : Archive Content) (empty : List String) : Except Failure Content := do
  require (archive.size ≥ 1024 ∧ archive.size % 512 = 0) "truncated tar"
  require (archive.endBlocks = true) "missing native tar end blocks"
  let s ← archive.members.foldlM inspectMember ⟨[], [], none⟩
  if archive.complete = false then throw .osError
  match s.metadata with
  | none => throw (.refused "missing native metadata/main DB")
  | some metadata =>
    require ("db/database.sql.gz".toList ∈ s.files) "missing native metadata/main DB"
    require (∀ blob ∈ blobs, blob ∉ empty → (blob ++ ".tar.gz").toList ∈ s.files)
      "missing enabled nonempty component"
    pure metadata

/-! ## Spellings -/

section Spellings

variable {name name' : Text}

/-- The path is spelled without `.` and without an empty component. -/
def Plainly (key : Text) : Prop := key = join (pathParts key)

instance (key : Text) : Decidable (Plainly key) := inferInstanceAs (Decidable (_ = _))

theorem pathParts_append (p q : Text) : pathParts (p ++ '/' :: q) = pathParts p ++ pathParts q := by
  rw [pathParts, components_append, List.filter_append]
  rfl

theorem pathParts_trimRight : pathParts (trimRight name) = pathParts name := by
  have hslashes : ∀ slashes : Text, (∀ c ∈ slashes, c = '/') → ∀ p, pathParts (p ++ slashes) = pathParts p := by
    intro slashes h
    induction slashes with
    | nil => simp
    | cons c slashes ih =>
      rw [List.forall_mem_cons] at h
      obtain ⟨rfl, h⟩ := h
      intro p
      have hempty := ih h []
      rw [pathParts_append, ← List.nil_append slashes, hempty]
      simp [pathParts, components]
  conv_rhs => rw [← List.rdropWhile_append_rtakeWhile (p := fun c : Char => decide (c = '/')) (l := name)]
  exact (hslashes _ (fun c hc => by simpa using List.mem_rtakeWhile_imp hc) _).symm

theorem pathParts_memberKey : pathParts (memberKey name) = pathParts name := by
  rw [memberKey, pathParts_trimRight]
  split
  · rename_i h
    obtain ⟨rest, rfl⟩ := h
    exact (pathParts_append ['.'] rest).symm
  · rfl

theorem memberKey_eq_of_plainly (h : Plainly (memberKey name)) (h' : Plainly (memberKey name'))
    (hparts : pathParts name = pathParts name') : memberKey name = memberKey name' := by
  rw [h, h', pathParts_memberKey, pathParts_memberKey, hparts]

end Spellings

/-! ## Members that are accepted -/

section Accepted

variable {s s' : Inspected Content} {m : Member Content} {ms : List (Member Content)}

theorem safe_of_safeMember {name key : Text} {kind : MemberKind} (h : safeMember name kind = .ok key) :
    SafeName name ∧ key = memberKey name := by
  obtain ⟨_, hrequire, h⟩ := Data.bind_eq_ok.mp h
  cases h
  exact ⟨(of_require hrequire).1, rfl⟩

theorem inspectMember_ok (h : inspectMember s m = .ok s') :
    SafeName m.name ∧ memberKey m.name ∉ s.seen ∧ s'.seen = memberKey m.name :: s.seen := by
  obtain ⟨key, hkey, h⟩ := Data.bind_eq_ok.mp h
  obtain ⟨hsafe, rfl⟩ := safe_of_safeMember hkey
  obtain ⟨_, hnew, h⟩ := Data.bind_eq_ok.mp h
  obtain ⟨_, -, h⟩ := Data.bind_eq_ok.mp h
  refine ⟨hsafe, of_require hnew, ?_⟩
  split at h
  · cases h
    rfl
  · obtain ⟨metadata, -, h⟩ := Data.bind_eq_ok.mp h
    cases h
    rfl

theorem foldlM_inspectMember (h : ms.foldlM inspectMember s = .ok s') :
    (∀ m ∈ ms, SafeName m.name) ∧ (∀ m ∈ ms, memberKey m.name ∉ s.seen) ∧
      ms.Pairwise fun m m' => memberKey m.name ≠ memberKey m'.name := by
  induction ms generalizing s with
  | nil => exact ⟨nofun, nofun, .nil⟩
  | cons m ms ih =>
    rw [List.foldlM_cons] at h
    obtain ⟨next, hnext, h⟩ := Data.bind_eq_ok.mp h
    obtain ⟨hsafe, hnew, hseen⟩ := inspectMember_ok hnext
    obtain ⟨hsafes, hnews, hpairwise⟩ := ih h
    rw [hseen] at hnews
    refine ⟨List.forall_mem_cons.mpr ⟨hsafe, hsafes⟩, List.forall_mem_cons.mpr ⟨hnew, ?_⟩,
      List.pairwise_cons.mpr ⟨?_, hpairwise⟩⟩
    · exact fun other hother hmem => hnews other hother (List.mem_cons_of_mem _ hmem)
    · intro other hother heq
      exact hnews other hother (heq ▸ List.mem_cons_self)

end Accepted

/-- The names are relative and do not go up, and no two of them denote one path. -/
structure Unaliased (members : List (Member Content)) : Prop where
  relative : ∀ m ∈ members, m.name.head? ≠ some '/' ∧ ['.', '.'] ∉ components m.name
  distinct : members.Pairwise fun m m' => pathParts m.name ≠ pathParts m'.name

/-- Members of an archive that is accepted denote different paths exactly if none that is not
spelled plainly denotes the path of another one. -/
theorem accepted_unaliased_iff (archive : Archive Content) (empty : List String) (metadata : Content)
    (h : inspectArchive archive empty = .ok metadata) : Unaliased archive.members ↔
      archive.members.Pairwise fun m m' => ¬ (Plainly (memberKey m.name) ∧ Plainly (memberKey m'.name)) →
        pathParts m.name ≠ pathParts m'.name := by
  obtain ⟨_, -, h⟩ := Data.bind_eq_ok.mp h
  obtain ⟨_, -, h⟩ := Data.bind_eq_ok.mp h
  obtain ⟨s, hfold, -⟩ := Data.bind_eq_ok.mp h
  obtain ⟨hsafe, -, hkeys⟩ := foldlM_inspectMember hfold
  constructor
  · intro hunaliased
    exact hunaliased.distinct.imp fun {m m'} (hne : pathParts m.name ≠ pathParts m'.name) _ => hne
  · intro hplainly
    refine ⟨fun m hm => ⟨(hsafe m hm).1, fun hdots => (hsafe m hm).2.1 ?_⟩, ?_⟩
    · exact List.mem_filter.mpr ⟨hdots, by decide⟩
    · refine hplainly.imp₂ (fun m m' himp hkey heq => ?_) hkeys
      by_cases hboth : Plainly (memberKey m.name) ∧ Plainly (memberKey m'.name)
      · exact hkey (memberKey_eq_of_plainly hboth.1 hboth.2 heq)
      · exact himp hboth heq

/-! ## An archive with a second database -/

namespace Sample

def nativeMember (name : String) : Member String where
  name := name.toList
  kind := .file
  size := 512
  extractable := true
  content := some ":backup_created_at: 2026-10-01"
  unpacked := some ⟨4096, none⟩

/-- An archive of an instance whose buckets are all empty. -/
def nativeArchive (names : List String) : Archive String where
  size := 10240
  endBlocks := true
  members := names.map nativeMember
  complete := true

end Sample

theorem native_archive_unaliased : Unaliased
    (Sample.nativeArchive ["backup_information.yml", "db/database.sql.gz"]).members :=
  (accepted_unaliased_iff (Sample.nativeArchive ["backup_information.yml", "db/database.sql.gz"]) blobs
    ":backup_created_at: 2026-10-01" (by decide)).mpr (by decide)

theorem aliased_archive_accepted : ¬ ∀ (archive : Archive String) (empty : List String) (metadata : String),
    inspectArchive archive empty = .ok metadata → Unaliased archive.members := by
  intro h
  have hunaliased := h (Sample.nativeArchive
    ["backup_information.yml", "db/database.sql.gz", ".//db/database.sql.gz"]) blobs
      ":backup_created_at: 2026-10-01" (by decide)
  have hdistinct := hunaliased.distinct
  revert hdistinct
  decide

end ClusterState.Backup
