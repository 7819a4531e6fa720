import ClusterState.Factorio.Startup

/-! # What the commands of the start-up do

A command that fails may have had its effect, or a part of it. The server, once
it runs, writes the world and its autosaves, and leaves the markers alone.
-/

namespace ClusterState.Factorio

open Concurrency

structure Sources where
  directory : Option Text
  file : Text → Option Text
  configLines : Option (List Text)

namespace State

def dir (s : State) : Place → Directory
  | .top => s.top
  | .saves => s.saves
  | .preUpgrade => s.preUpgrade

def setDir (s : State) : Place → Directory → State
  | .top, d => { s with top := d }
  | .saves, d => { s with saves := d }
  | .preUpgrade, d => { s with preUpgrade := d }

def entry (s : State) (p : Place) (name : Name) : Option Entry := (s.dir p).lookup name

def put (s : State) (p : Place) (name : Name) (e : Entry) : State :=
  s.setDir p ((s.dir p).insert name e)

def drop (s : State) (p : Place) (name : Name) : State := s.setDir p ((s.dir p).erase name)

def fail (s : State) : State := { s with failed := true }

section Lookup

variable {s : State} {p p' : Place} {name name' : Name} {e : Entry}

@[simp] theorem dir_setDir {d : Directory} : (s.setDir p d).dir p = d := by cases p <;> rfl

theorem dir_setDir_ne {d : Directory} (h : p' ≠ p) : (s.setDir p d).dir p' = s.dir p' := by
  cases p <;> cases p' <;> first | rfl | exact absurd rfl h

theorem entry_put :
    (s.put p name e).entry p' name' = if p' = p ∧ name' = name then some e else s.entry p' name' := by
  by_cases hp : p' = p
  · subst hp
    by_cases hname : name' = name
    · subst hname
      rw [if_pos ⟨rfl, rfl⟩, entry, put, dir_setDir, AList.lookup_insert]
    · rw [if_neg fun h => hname h.2, entry, put, dir_setDir, AList.lookup_insert_ne hname, entry]
  · rw [if_neg fun h => hp h.1, entry, put, dir_setDir_ne hp, entry]

theorem entry_drop :
    (s.drop p name).entry p' name' = if p' = p ∧ name' = name then none else s.entry p' name' := by
  by_cases hp : p' = p
  · subst hp
    by_cases hname : name' = name
    · subst hname
      rw [if_pos ⟨rfl, rfl⟩, entry, drop, dir_setDir, AList.lookup_erase]
    · rw [if_neg fun h => hname h.2, entry, drop, dir_setDir, AList.lookup_erase_ne hname, entry]
  · rw [if_neg fun h => hp h.1, entry, drop, dir_setDir_ne hp, entry]

@[simp] theorem entry_put_self : (s.put p name e).entry p name = some e := by
  rw [entry_put, if_pos ⟨rfl, rfl⟩]

@[simp] theorem entry_drop_self : (s.drop p name).entry p name = none := by
  rw [entry_drop, if_pos ⟨rfl, rfl⟩]

theorem entry_put_of_place (h : p' ≠ p) : (s.put p name e).entry p' name' = s.entry p' name' := by
  rw [entry_put, if_neg fun heq => h heq.1]

theorem entry_drop_of_place (h : p' ≠ p) : (s.drop p name).entry p' name' = s.entry p' name' := by
  rw [entry_drop, if_neg fun heq => h heq.1]

theorem entry_put_of_name (h : name' ≠ name) : (s.put p name e).entry p' name' = s.entry p' name' := by
  rw [entry_put, if_neg fun heq => h heq.2]

theorem entry_drop_of_name (h : name' ≠ name) : (s.drop p name).entry p' name' = s.entry p' name' := by
  rw [entry_drop, if_neg fun heq => h heq.2]

@[simp] theorem entry_fail : s.fail.entry p name = s.entry p name := by cases p <;> rfl

@[simp] theorem failed_fail : s.fail.failed = true := rfl

@[simp] theorem failed_put : (s.put p name e).failed = s.failed := by cases p <;> rfl

@[simp] theorem failed_drop : (s.drop p name).failed = s.failed := by cases p <;> rfl

end Lookup

def files (s : State) (p : Place) (name : Name) : Option Files :=
  match s.entry p name with
  | some (.directory files) => some files
  | _ => none

/-- The command fails, and nothing has happened. -/
def Fails {α : Type} (s : State) (x : Option α) (s' : State) : Prop := x = none ∧ s' = s.fail

/-- The command leads to `t`, or fails before or after that. -/
def Leads (s t : State) (x : Option Unit) (s' : State) : Prop :=
  (x = some () ∧ s' = t) ∨ (x = none ∧ (s' = s.fail ∨ s' = t.fail))

def Within (s : State) (p : Place) (name : Name) (x : Option Unit) (s' : State) : Prop :=
  match s.files p name with
  | some _ => ∃ files, (x = some () ∧ s' = s.put p name (.directory files)) ∨
      (x = none ∧ s' = (s.put p name (.directory files)).fail)
  | none => s.Fails x s'

def Writes (s : State) (p : Place) (name file : Name) (content : Text) (x : Option Unit)
    (s' : State) : Prop :=
  match s.files p name with
  | some files =>
    (x = some () ∧ s' = s.put p name (.directory (files.insert file (.file content)))) ∨
      (x = none ∧ (s' = s.fail ∨
        ∃ leaf, s' = (s.put p name (.directory (files.insert file leaf))).fail))
  | none => s.Fails x s'

def nested (staging : Name) (files target : Files) : Files :=
  files.entries.foldl (fun all file => all.insert (staging ++ '/' :: file.1) file.2) target

/-- There is something at the place where `nested` would put a directory. -/
def occupied (staging : Name) (target : Files) : Bool :=
  target.keys.any fun key => key == staging || (staging ++ ['/']).isPrefixOf key

/-- `mv -- staging target`, where an existing directory is not replaced but moved into. -/
def MovesBackup (s : State) (staging target : Name) (x : Option Unit) (s' : State) : Prop :=
  match s.files .preUpgrade staging, s.entry .preUpgrade target with
  | some files, none =>
    s.Leads ((s.drop .preUpgrade staging).put .preUpgrade target (.directory files)) x s'
  | some files, some (.directory targetFiles) =>
    if occupied staging targetFiles then s.Fails x s'
    else s.Leads ((s.drop .preUpgrade staging).put .preUpgrade target
      (.directory (nested staging files targetFiles))) x s'
  | some _, some (.link (some true)) => s.Leads (s.drop .preUpgrade staging) x s'
  | _, _ => s.Fails x s'

/-- What the server does while it runs. -/
structure Plays (s s' : State) : Prop where
  own : ∀ name, isOwn name = true → s'.entry .top name = s.entry .top name
  saves : ∀ name, s'.entry .saves name = s.entry .saves name ∨ isTempSave name = true ∨
    isAutosave name = true ∨ name = finalSave ∧ isFile (s'.entry .saves name) = true
  preUpgrade : ∀ name, s'.entry .preUpgrade name = s.entry .preUpgrade name

end State

variable (cfg : Sources)

open State in
def performs : (r : Command) → State → r.Value → State → Prop
  | .realpathDirectory, s, x, s' => s' = s ∧ x = cfg.directory
  | .realpathFile name, s, x, s' => s' = s ∧ x = cfg.file name
  | .mapfile, s, x, s' => s' = s ∧ x = cfg.configLines
  | .mkdirs, s, x, s' => s.Leads s x s'
  | .cpConfig _ _, s, x, s' => s.Leads s x s'
  | .chmodConfig _, s, x, s' => s.Leads s x s'
  | .glob g, s, x, s' => s' = s ∧ x.Perm ((s.dir g.place).keys.filter g.matches)
  | .entry p name, s, x, s' => s' = s ∧ x = s.entry p name
  | .read p name, s, x, s' => s.Fails x s' ∨
      ∃ content, s.entry p name = some (.file content) ∧ x = some (substitute content) ∧ s' = s
  | .wc p name, s, x, s' => s.Fails x s' ∨
      ∃ content, s.entry p name = some (.file content) ∧ x = some content.length ∧ s' = s
  | .rm p name, s, x, s' => s.Leads (s.drop p name) x s'
  | .rmTree name, s, x, s' => s.Leads (s.drop .top name) x s' ∨
      x = none ∧ isDirectory (s.entry .top name) = true ∧
        ∃ files, s' = (s.put .top name (.directory files)).fail
  | .rmForced name, s, x, s' => s.Leads (s.drop .top name) x s'
  | .date, s, x, s' => s.Fails x s' ∨ (x ≠ none ∧ s' = s)
  | .mkdirStaging staging, s, x, s' =>
    match s.entry .preUpgrade staging with
    | none => s.Leads (s.put .preUpgrade staging (.directory ∅)) x s'
    | some _ => s.Fails x s'
  | .cpSave save staging, s, x, s' =>
    match s.entry .saves save with
    | some (.file content) => s.Writes .preUpgrade staging save content x s'
    | _ => s.Fails x s'
  | .writeMetadata staging text, s, x, s' =>
    s.Writes .preUpgrade staging "backup-metadata.txt".toList text x s'
  | .mvBackup staging target, s, x, s' => s.MovesBackup staging target x s'
  | .mktempRoot, s, x, s' => s.Fails x s' ∨ ∃ random,
      s.entry .top (creationRootPrefix ++ random) = none ∧
        let t := s.put .top (creationRootPrefix ++ random) (.directory ∅)
        (x = some (creationRootPrefix ++ random) ∧ s' = t) ∨ (x = none ∧ s' = t.fail)
  | .mkdirRoot root, s, x, s' => s.Within .top root x s'
  | .cpScenario root _ _, s, x, s' => s.Within .top root x s'
  | .chmodScenario root, s, x, s' => s.Within .top root x s'
  | .writeConversion root _, s, x, s' => s.Within .top root x s'
  | .chmodConversion root, s, x, s' => s.Within .top root x s'
  | .scenario2map root, s, x, s' =>
    match s.files .top root with
    | some _ => ∃ files, let t := s.put .top root (.directory files)
        (x = .exited 0 ∧ s' = t ∧ ∃ content, files.lookup initialSave = some (.file content)) ∨
          s' = t.fail
    | none => s' = s.fail
  | .initialSave root, s, x, s' =>
    s' = s ∧ x = (s.files .top root).bind fun files => files.lookup initialSave
  | .mvSave root, s, x, s' =>
    match s.files .top root with
    | some files =>
      match files.lookup initialSave with
      | some leaf =>
        if s.entry .saves finalSave = none then
          s.Leads ((s.put .top root (.directory (files.erase initialSave))).put .saves finalSave
            leaf.toEntry) x s'
        else s' = s.fail
      | none => s.Fails x s'
    | none => s.Fails x s'
  | .mktemp m, s, x, s' => s.Fails x s' ∨ ∃ random,
      s.entry .top (m.tempPrefix ++ random) = none ∧
        let t := s.put .top (m.tempPrefix ++ random) (.file [])
        (x = some (m.tempPrefix ++ random) ∧ s' = t) ∨ (x = none ∧ s' = t.fail)
  | .writeTemp name text, s, x, s' =>
    match s.entry .top name with
    | some (.file _) => (x = some () ∧ s' = s.put .top name (.file text)) ∨
        (x = none ∧ ∃ content, s' = (s.put .top name (.file content)).fail)
    | _ => s' = s.fail
  | .mvWorldMarker temp, s, x, s' =>
    match s.entry .top temp with
    | some e =>
      if s.entry .top worldMarker = none then
        s.Leads ((s.drop .top temp).put .top worldMarker e) x s'
      else s' = s.fail
    | none => s.Fails x s'
  | .mvVersionMarker temp, s, x, s' =>
    match s.entry .top temp with
    | some e =>
      if isDirectory (s.entry .top versionMarker) then s.Fails x s'
      else s.Leads ((s.drop .top temp).put .top versionMarker e) x s'
    | none => s.Fails x s'
  | .exec, s, x, s' => s.Fails x s' ∨ (x = some () ∧ s' = s)

end ClusterState.Factorio
