import ClusterState.Concurrency.Execution
import ClusterState.Factorio.Effects

/-! # Runs of the script

The system of the script alone, and runs of it that can be computed.
-/

namespace ClusterState.Factorio

open Concurrency State

def system (cfg : Sources) : System PUnit.{1} Command Command.Value State where
  performs _ := performs cfg
  env _ _ := False

abbrev Run := Config PUnit.{1} Command Command.Value Exit Unit State

def RunsTo (cfg : Sources) (settings : Settings) (s : State) (c : Run) : Prop :=
  (system cfg).Reaches ⟨fun _ => script settings, s⟩ c

instance (s : State) (p : Place) (name : Name) : Decidable (s.entry p name = none) :=
  decidable_of_iff ((s.entry p name).isNone = true) Option.isNone_iff_eq_none

/-- What is put into the directory of the creation does not matter. -/
def prepares (s : State) (root : Name) : Option (Option Unit × State) :=
  match s.files .top root with
  | some files => some (some (), s.put .top root (.directory files))
  | none => none

def respond (cfg : Sources) : (r : Command) → State → Bool → Option (r.Value × State)
  | .realpathDirectory, s, true => some (cfg.directory, s)
  | .realpathFile name, s, true => some (cfg.file name, s)
  | .mkdirs, s, true => some (some (), s)
  | .cpConfig _ _, s, true => some (some (), s)
  | .chmodConfig _, s, true => some (some (), s)
  | .glob g, s, true => some ((s.dir g.place).keys.filter g.matches, s)
  | .entry p name, s, true => some (s.entry p name, s)
  | .read p name, s, true =>
    match s.entry p name with
    | some (.file content) => some (some (substitute content), s)
    | _ => none
  | .wc p name, s, true =>
    match s.entry p name with
    | some (.file content) => some (some content.length, s)
    | _ => none
  | .rm p name, s, true => some (some (), s.drop p name)
  | .date, s, true => some (some "20260101T000000Z".toList, s)
  | .mkdirStaging staging, s, true =>
    if s.entry .preUpgrade staging = none then
      some (some (), s.put .preUpgrade staging (.directory ∅))
    else none
  | .cpSave save staging, s, true =>
    match s.entry .saves save, s.files .preUpgrade staging with
    | some (.file content), some files =>
      some (some (), s.put .preUpgrade staging (.directory (files.insert save (.file content))))
    | _, _ => none
  | .writeMetadata staging text, s, true =>
    match s.files .preUpgrade staging with
    | some files => some (some (), s.put .preUpgrade staging
        (.directory (files.insert "backup-metadata.txt".toList (.file text))))
    | none => none
  | .mvBackup staging target, s, true =>
    match s.files .preUpgrade staging, s.entry .preUpgrade target with
    | some files, none => some (some (), (s.drop .preUpgrade staging).put .preUpgrade target
        (.directory files))
    | _, _ => none
  | .mktemp m, s, true =>
    let name := m.tempPrefix ++ "5vK8PQnb".toList
    if s.entry .top name = none then some (some name, s.put .top name (.file [])) else none
  | .writeTemp name text, s, true =>
    match s.entry .top name with
    | some (.file _) => some (some (), s.put .top name (.file text))
    | _ => none
  | .mvVersionMarker temp, s, true =>
    match s.entry .top temp with
    | some e =>
      if isDirectory (s.entry .top versionMarker) then none
      else some (some (), (s.drop .top temp).put .top versionMarker e)
    | none => none
  | .exec, s, true => some (some (), s)
  | .exec, s, false => some (none, s.fail)
  | .rmTree name, s, true => some (some (), s.drop .top name)
  | .rmForced name, s, true => some (some (), s.drop .top name)
  | .mapfile, s, true => some (cfg.configLines, s)
  | .mktempRoot, s, true =>
    let name := creationRootPrefix ++ "Rf3LwX0c".toList
    if s.entry .top name = none then some (some name, s.put .top name (.directory ∅)) else none
  | .mkdirRoot root, s, true => prepares s root
  | .cpScenario root _ _, s, true => prepares s root
  | .chmodScenario root, s, true => prepares s root
  | .writeConversion root _, s, true => prepares s root
  | .chmodConversion root, s, true => prepares s root
  | .scenario2map root, s, true =>
    match s.files .top root with
    | some files => some (.exited 0, s.put .top root
        (.directory (files.insert initialSave (.file "made".toList))))
    | none => none
  | .initialSave root, s, true =>
    some ((s.files .top root).bind fun files => files.lookup initialSave, s)
  | .mvSave root, s, true =>
    match s.files .top root with
    | some files =>
      match files.lookup initialSave with
      | some leaf =>
        if s.entry .saves finalSave = none then
          some (some (), (s.put .top root (.directory (files.erase initialSave))).put .saves finalSave
            leaf.toEntry)
        else none
      | none => none
    | none => none
  | .mvWorldMarker temp, s, true =>
    match s.entry .top temp with
    | some e =>
      if s.entry .top worldMarker = none then
        some (some (), (s.drop .top temp).put .top worldMarker e)
      else none
    | none => none
  | _, _, _ => none

theorem within_of_prepares {s s' : State} {root : Name} {x : Option Unit}
    (h : prepares s root = some (x, s')) : s.Within .top root x s' := by
  unfold prepares at h
  split at h
  · rename_i files hfiles
    cases h
    rw [Within, hfiles]
    exact ⟨files, .inl ⟨rfl, rfl⟩⟩
  · cases h

theorem performs_of_respond {cfg : Sources} {r : Command} {s s' : State} {y : Bool} {x : r.Value}
    (h : respond cfg r s y = some (x, s')) : performs cfg r s x s' := by
  unfold respond at h
  split at h
  case h_1 | h_2 | h_7 =>
    cases h
    exact ⟨rfl, rfl⟩
  case h_3 | h_4 | h_5 | h_10 =>
    cases h
    exact .inl ⟨rfl, rfl⟩
  case h_6 =>
    cases h
    exact ⟨rfl, .refl _⟩
  case h_8 | h_9 =>
    split at h
    · rename_i content hentry
      cases h
      exact .inr ⟨content, hentry, rfl, rfl⟩
    · cases h
  case h_11 =>
    cases h
    exact .inr ⟨Option.some_ne_none _, rfl⟩
  case h_12 =>
    split at h
    · rename_i hnone
      cases h
      simp [performs, hnone, Leads]
    · cases h
  case h_13 =>
    split at h
    · rename_i content files hcontent hfiles
      cases h
      simp [performs, hcontent, Writes, hfiles]
    · cases h
  case h_14 =>
    split at h
    · rename_i files hfiles
      cases h
      simp [performs, Writes, hfiles]
    · cases h
  case h_15 =>
    split at h
    · rename_i files hfiles hnone
      cases h
      simp [performs, MovesBackup, hfiles, hnone, Leads]
    · cases h
  case h_16 =>
    simp only at h
    split at h
    · rename_i hnone
      cases h
      exact .inr ⟨_, hnone, .inl ⟨rfl, rfl⟩⟩
    · cases h
  case h_17 =>
    split at h
    · rename_i content hentry
      cases h
      simp [performs, hentry]
    · cases h
  case h_18 =>
    split at h
    · rename_i e hentry
      split at h
      · cases h
      · rename_i hdirectory
        cases h
        simp [performs, hentry, hdirectory, Leads]
    · cases h
  case h_19 =>
    cases h
    exact .inr ⟨rfl, rfl⟩
  case h_20 | h_22 =>
    cases h
    exact .inl ⟨rfl, rfl⟩
  case h_21 =>
    cases h
    exact .inl (.inl ⟨rfl, rfl⟩)
  case h_23 =>
    cases h
    exact ⟨rfl, rfl⟩
  case h_24 =>
    simp only at h
    split at h
    · rename_i hnone
      cases h
      exact .inr ⟨_, hnone, .inl ⟨rfl, rfl⟩⟩
    · cases h
  case h_25 | h_26 | h_27 | h_28 | h_29 => exact within_of_prepares h
  case h_30 =>
    split at h
    · rename_i files hfiles
      cases h
      rw [performs, hfiles]
      exact ⟨_, .inl ⟨rfl, rfl, _, AList.lookup_insert _⟩⟩
    · cases h
  case h_31 =>
    cases h
    exact ⟨rfl, rfl⟩
  case h_32 =>
    split at h
    · rename_i files hfiles
      split at h
      · rename_i leaf hleaf
        split at h
        · rename_i hnone
          cases h
          simp [performs, hfiles, hleaf, hnone, Leads]
        · cases h
      · cases h
    · cases h
  case h_33 =>
    split at h
    · rename_i e hentry
      split at h
      · rename_i hnone
        cases h
        simp [performs, hentry, hnone, Leads]
      · cases h
    · cases h
  case h_34 => cases h

def responder (cfg : Sources) : Responder (system cfg) Bool Empty where
  respond _ := respond cfg
  happen e := e.elim
  performs_of_respond := performs_of_respond
  env_of_happen {e} := e.elim

namespace Sample

def sources : Sources where
  directory := some "/config".toList
  file name := some ("/config/".toList ++ name)
  configLines := some expectedConfigLines

def settings : Settings where
  version := "2.0.78".toList
  stateDir := "/factorio".toList
  configSourceDir := "/config".toList
  pid := "7".toList

/-- A world that the version before has been started on. -/
def started : State where
  top := (AList.singleton worldMarker (.file "friendly-factories.zip\n".toList)).insert versionMarker
    (.file "2.0.77\n".toList)
  saves := AList.singleton finalSave (.file "world".toList)
  preUpgrade := ∅
  failed := false

theorem within_config (name : Text) :
    within "/config".toList ("/config/".toList ++ name) = true := by
  rw [within, Bool.or_eq_true, List.isPrefixOf_iff_prefix]
  exact .inr (List.prefix_append _ _)

def begun : Run := ⟨fun _ => script settings, started⟩

end Sample

def returned : Script Unit → Bool
  | .done _ => true
  | _ => false

def gaveUp : Script Unit → Bool
  | .raise _ => true
  | _ => false

theorem eq_done_of_returned {m : Script Unit} (h : returned m = true) : m = .done () := by
  cases m with
  | done _ => rfl
  | _ => cases h

theorem eq_raise_of_gaveUp {m : Script Unit} (h : gaveUp m = true) : ∃ e, m = .raise e := by
  cases m with
  | raise e => exact ⟨e, rfl⟩
  | _ => cases h

def hasFile (s : State) (p : Place) (name : Name) (content : Text) : Bool :=
  match s.entry p name with
  | some (.file content') => content' == content
  | _ => false

theorem entry_of_hasFile {s : State} {p : Place} {name : Name} {content : Text}
    (h : hasFile s p name content = true) : s.entry p name = some (.file content) := by
  unfold hasFile at h
  split at h
  · rename_i hentry
    rw [hentry, beq_iff_eq.mp h]
  · cases h

theorem Sample.upgrades : ∃ c, RunsTo Sample.sources Sample.settings Sample.started c ∧
    returned (c.procs ⟨⟩) = true ∧
    c.shared.entry .top versionMarker = some (.file "2.0.78\n".toList) := by
  have hrun : ((responder Sample.sources).execute [.act ⟨⟩ (List.replicate 55 true)] Sample.begun).any
      (fun c => returned (c.procs ⟨⟩) && hasFile c.shared .top versionMarker "2.0.78\n".toList) =
        true := by
    decide +kernel
  obtain ⟨c, hreach, hcheck⟩ := Responder.exists_reaches hrun
  rw [Bool.and_eq_true] at hcheck
  exact ⟨c, hreach, hcheck.1, entry_of_hasFile hcheck.2⟩

end ClusterState.Factorio
