import Mathlib

/-! # The state directory of the game server

Three of its directories matter to the start-up: the directory itself with its
markers and its temporary entries, the saves and the backups. A directory that
is absent has no entries.
-/

namespace ClusterState.Factorio

abbrev Name := List Char

abbrev Text := List Char

/-- What a directory below one of the three holds, by its path there. -/
inductive Leaf where
  | file (content : Text)
  | other
  deriving DecidableEq, Repr

abbrev Files := AList fun _ : Name => Leaf

/-- A symbolic link says whether it leads anywhere, and whether to a directory. -/
inductive Entry where
  | file (content : Text)
  | directory (files : Files)
  | link (target : Option Bool)
  | other

abbrev Directory := AList fun _ : Name => Entry

inductive Place where
  | top
  | saves
  | preUpgrade
  deriving DecidableEq, Repr

structure State where
  top : Directory
  saves : Directory
  preUpgrade : Directory
  /-- A command of the current run has not done what it is for. -/
  failed : Bool

/-! ## Names -/

def finalSave : Name := "friendly-factories.zip".toList

def legacySave : Name := "martins-server.zip".toList

def legacyVersion : Text := "2.0.77".toList

def versionMarker : Name := ".last-started-version".toList

def worldMarker : Name := ".friendly-factories-world".toList

def creationRootPrefix : Name := ".friendly-factories-create.".toList

def initialSave : Name := "saves/friendly-factories.zip".toList

/-- `*` does not match a dot at the beginning. -/
def visible (name : Name) : Bool := name.head? != some '.'

def isZip (name : Name) : Bool := visible name && ".zip".toList.isSuffixOf name

def isTempSave (name : Name) : Bool := visible name && ".tmp.zip".toList.isSuffixOf name

/-- `^_autosave[0-9]+\.zip$` -/
def isAutosave (name : Name) : Bool :=
  "_autosave".toList.isPrefixOf name &&
    let rest := name.drop "_autosave".toList.length
    !(rest.takeWhile Char.isDigit).isEmpty && rest.dropWhile Char.isDigit == ".zip".toList

def isSave (name : Name) : Bool := isZip name && !isTempSave name

def isPrimary (name : Name) : Bool := isSave name && !isAutosave name

def isCreationRoot (name : Name) : Bool := creationRootPrefix.isPrefixOf name

def versionMarkerTemp : Name := versionMarker ++ ".tmp".toList

inductive Marker where
  | world
  | version
  deriving DecidableEq, Repr

def Marker.name : Marker → Name
  | .world => worldMarker
  | .version => versionMarker

def Marker.tempPrefix (m : Marker) : Name := m.name ++ ".tmp-".toList

def Marker.isTemp (m : Marker) (name : Name) : Bool := m.tempPrefix.isPrefixOf name

def isMarkerTemp (name : Name) : Bool :=
  Marker.world.isTemp name || Marker.version.isTemp name || name == versionMarkerTemp

/-- The names of the directory itself that the start-up looks at. -/
def isOwn (name : Name) : Bool :=
  name == worldMarker || name == versionMarker || isCreationRoot name || isMarkerTemp name

/-! ## Entries -/

def isFile : Option Entry → Bool
  | some (.file _) => true
  | _ => false

def isDirectory : Option Entry → Bool
  | some (.directory _) => true
  | _ => false

/-- `-e`, which follows links. -/
def exists? : Option Entry → Bool
  | none => false
  | some (.link target) => target.isSome
  | some _ => true

def Leaf.toEntry : Leaf → Entry
  | .file content => .file content
  | .other => .other

/-- `$(<file)` drops NUL characters, and the newlines at the end. -/
def substitute (content : Text) : Text :=
  ((content.filter (· != '\x00')).reverse.dropWhile (· == '\n')).reverse

theorem isFile_iff {e : Option Entry} : isFile e = true ↔ ∃ content, e = some (.file content) := by
  constructor
  · intro h
    unfold isFile at h
    split at h
    · exact ⟨_, rfl⟩
    · cases h
  · rintro ⟨content, rfl⟩
    rfl

theorem substitute_append_newline {text : Text} (hnul : '\x00' ∉ text)
    (hlast : text.getLast? ≠ some '\n') : substitute (text ++ ['\n']) = text := by
  have hfilter : (text ++ ['\n']).filter (· != '\x00') = text ++ ['\n'] := by
    rw [List.filter_eq_self]
    intro c hc
    rw [bne_iff_ne]
    rintro rfl
    rcases List.mem_append.mp hc with htext | hnewline
    · exact hnul htext
    · cases List.mem_singleton.mp hnewline
  rw [substitute, hfilter, List.reverse_append]
  change (text.reverse.dropWhile (· == '\n')).reverse = text
  have hkeep : text.reverse.dropWhile (· == '\n') = text.reverse := by
    rw [← List.head?_reverse] at hlast
    cases hreverse : text.reverse with
    | nil => rfl
    | cons c rest =>
      rw [hreverse] at hlast
      have hne : (c == '\n') = false := by
        rw [beq_eq_false_iff_ne]
        rintro rfl
        exact hlast rfl
      rw [List.dropWhile_cons, hne]
      rfl
  rw [hkeep, List.reverse_reverse]

/-! ## What the names tell apart -/

theorem isSave_of_isAutosave {name : Name} (h : isAutosave name = true) : isSave name = true := by
  rw [isAutosave, Bool.and_eq_true, Bool.and_eq_true] at h
  obtain ⟨hfront, hdigits, hzip⟩ := h
  obtain ⟨rest, rfl⟩ := List.isPrefixOf_iff_prefix.mp hfront
  have hrest : ("_autosave".toList ++ rest).drop "_autosave".toList.length = rest :=
    List.drop_left
  rw [hrest] at hdigits hzip
  have hsplit := List.takeWhile_append_dropWhile (p := Char.isDigit) (l := rest)
  rw [beq_iff_eq.mp hzip] at hsplit
  have hne : rest.takeWhile Char.isDigit ≠ [] := by
    intro hempty
    rw [hempty] at hdigits
    cases hdigits
  obtain ⟨digits, d, hd⟩ := (List.eq_nil_or_concat _).resolve_left hne
  rw [List.concat_eq_append] at hd
  have hdigit : d.isDigit = true := by
    refine List.mem_takeWhile_imp (l := rest) (p := Char.isDigit) ?_
    rw [hd]
    exact List.mem_append_right _ List.mem_cons_self
  rw [hd] at hsplit
  have hvisible : visible ("_autosave".toList ++ rest) = true := rfl
  rw [isSave, isZip, isTempSave, hvisible, Bool.true_and, Bool.true_and, ← hsplit, Bool.and_eq_true,
    Bool.not_eq_true', List.isSuffixOf_iff_suffix]
  refine ⟨⟨"_autosave".toList ++ (digits ++ [d]), by rw [List.append_assoc]⟩, ?_⟩
  rw [← Bool.not_eq_true, List.isSuffixOf_iff_suffix]
  rintro ⟨front, heq⟩
  have hreverse := congrArg (fun name => name.reverse[4]?) heq
  simp at hreverse
  subst hreverse
  cases hdigit

theorem isTempSave_eq_false {name : Name} (h : isSave name = true) : isTempSave name = false := by
  rw [isSave, Bool.and_eq_true, Bool.not_eq_true'] at h
  exact h.2

theorem isPrimary_finalSave : isPrimary finalSave = true := by decide

theorem isPrimary_legacySave : isPrimary legacySave = true := by decide

theorem isSave_of_isPrimary {name : Name} (h : isPrimary name = true) : isSave name = true := by
  rw [isPrimary, Bool.and_eq_true] at h
  exact h.1

end ClusterState.Factorio
