import ClusterState.Factorio.Worlds

/-! # When the script issues its commands

The guard of a command says what holds whenever the script issues it, from whatever
state the script was started in. Guarded commands keep a state admissible.
-/

namespace ClusterState.Factorio

open Concurrency

namespace State

/-- Below a directory with the name of a backup, not of a stage, there is a copy of every regular
save of `s₀`, and what it is a copy of. -/
def Copied (settings : Settings) (s₀ s : State) : Prop :=
  ∃ timestamp name files front,
    (name = backupName settings s₀.lastStarted timestamp ∨
      name = backupName settings s₀.lastStarted timestamp ++ '-' :: settings.pid) ∧
    s.entry .preUpgrade name = some (.directory files) ∧
    files.lookup (front ++ "backup-metadata.txt".toList) =
      some (.file (backupMetadata settings s₀.lastStarted timestamp)) ∧
    ∀ save content, isSave save = true → s₀.entry .saves save = some (.file content) →
      files.lookup (front ++ save) = some (.file content)

/-- No symbolic link among the backups leads to a directory. -/
def NoLinks (s : State) : Prop := ∀ name, s.entry .preUpgrade name ≠ some (.link (some true))

/-- Another version has been started on the world. -/
structure Upgrades (version : Text) (s : State) : Prop where
  regular : isFile (s.entry .saves finalSave) = true
  started : s.lastStarted ≠ []
  other : s.lastStarted ≠ version

/-- What another version needs before it may leave its mark. -/
def BackedUp (settings : Settings) (s₀ s : State) : Prop :=
  s₀.NoLinks → s₀.Upgrades settings.version → s₀.Copied settings s

structure Approved (version : Text) (s : State) : Prop where
  unmarked : s.Unmarked
  noAutosaves : s.NoAutosaves
  regular : isFile (s.entry .saves legacySave) = true
  only : s.OnlyPrimary legacySave
  lastStarted : s.lastStarted = legacyVersion
  version : version = legacyVersion

structure BacksUp (staging : Name) (s₀ s : State) : Prop where
  fresh : s₀.entry .preUpgrade staging = none
  version : s.entry .top versionMarker = s₀.entry .top versionMarker

/-- There is no world yet, and one has been made aside. -/
structure Publishes (root : Name) (s : State) : Prop where
  unmarked : s.Unmarked
  noAutosaves : s.NoAutosaves
  noPrimary : s.NoPrimary
  absent : s.entry .saves finalSave = none
  made : ∃ content, ((s.files .top root).bind fun files => files.lookup initialSave) =
    some (.file content)

end State

/-- `s₀` is the state in which the script was started. -/
def guard (settings : Settings) (s₀ : State) : Command → State → Prop
  | .rm .saves name, s => (isTempSave name = true ∧ isFile (s.entry .saves name) = true) ∨
      (name = legacySave ∧ s₀.SameWorld s ∧ s.Approved settings.version)
  | .rm .top name, s => isMarkerTemp name = true ∧ isFile (s.entry .top name) = true
  | .rm .preUpgrade _, _ => False
  | .rmTree name, _ => isCreationRoot name = true
  | .rmForced name, _ => isMarkerTemp name = true
  | .mkdirStaging _, s => s.entry .top versionMarker = s₀.entry .top versionMarker
  | .cpSave _ staging, s => s₀.BacksUp staging s
  | .writeMetadata staging _, s => s₀.BacksUp staging s
  | .mvBackup staging target, s => target ≠ staging ∧ s₀.BacksUp staging s
  | .mkdirRoot root, _ => isCreationRoot root = true
  | .cpScenario root _ _, _ => isCreationRoot root = true
  | .chmodScenario root, _ => isCreationRoot root = true
  | .writeConversion root _, _ => isCreationRoot root = true
  | .chmodConversion root, _ => isCreationRoot root = true
  | .scenario2map root, _ => isCreationRoot root = true
  | .mvSave root, s => isCreationRoot root = true ∧ s.Publishes root
  | .writeTemp name _, _ => isMarkerTemp name = true
  | .mvWorldMarker temp, s => Marker.world.isTemp temp = true ∧ s.Reads temp finalSave ∧
      s.Unmarked ∧ s.Sole
  | .mvVersionMarker temp, s => Marker.version.isTemp temp = true ∧
      s.Reads temp settings.version ∧ s.Marked ∧ s.Sole ∧ s₀.BackedUp settings s
  | .exec, s => s.Marked ∧ s.Sole ∧ s.lastStarted = settings.version
  | _, _ => True

namespace State

variable {s s' s₀ : State} {name : Name} {settings : Settings} {cfg : Sources}

theorem Marked.not_unmarked (h : s.Marked) : ¬s.Unmarked := by
  intro hnone
  obtain ⟨content, hentry, -⟩ := h
  cases hnone.symm.trans hentry

theorem Admissible.within {x : Option Unit} (h : s.Admissible) (hname : isCreationRoot name = true)
    (hp : s.Within .top name x s') : s'.Admissible := by
  unfold Within at hp
  split at hp
  · obtain ⟨files, ⟨-, rfl⟩ | ⟨-, rfl⟩⟩ := hp
    · exact h.put_root hname
    · exact (h.put_root hname).fail
  · exact h.fails hp

theorem Admissible.writes {file : Name} {content : Text} {x : Option Unit} (h : s.Admissible)
    (hp : s.Writes .preUpgrade name file content x s') : s'.Admissible := by
  unfold Writes at hp
  split at hp
  · obtain ⟨-, rfl⟩ | ⟨-, rfl | ⟨leaf, rfl⟩⟩ := hp
    · exact h.put_preUpgrade
    · exact h.fail
    · exact h.put_preUpgrade.fail
  · exact h.fails hp

theorem Admissible.movesBackup {target : Name} {x : Option Unit} (h : s.Admissible)
    (hp : s.MovesBackup name target x s') : s'.Admissible := by
  unfold MovesBackup at hp
  split at hp
  · exact h.leads h.drop_preUpgrade.put_preUpgrade hp
  · split at hp
    · exact h.fails hp
    · exact h.leads h.drop_preUpgrade.put_preUpgrade hp
  · exact h.leads h.drop_preUpgrade hp
  · exact h.fails hp

theorem NoAutosaves.drop (h : s.NoAutosaves) : (s.drop .saves name).NoAutosaves := by
  intro name' hname
  rw [entry_drop]
  split
  · rfl
  · exact h name' hname

theorem OnlyPrimary.drop (h : s.OnlyPrimary name) : (s.drop .saves name).NoPrimary := by
  intro name' hname
  rw [entry_drop]
  split
  · rfl
  · rename_i hne
    rw [← Bool.not_eq_true]
    intro hfile
    exact hne ⟨rfl, h name' hname hfile⟩

theorem Admissible.drop_legacy {version : Text} (h : s.Admissible) (hs : s.Approved version) :
    (s.drop .saves legacySave).Admissible where
  creationRoots name hname := by
    rw [entry_drop_of_place (by decide)]
    exact h.creationRoots name hname
  markerTemps name hname := by
    rw [entry_drop_of_place (by decide)]
    exact h.markerTemps name hname
  version := by
    rw [entry_drop_of_place (by decide)]
    exact h.version
  world := by
    refine .fresh ?_ hs.noAutosaves.drop hs.only.drop ?_
    · exact (entry_drop_of_place (by decide)).trans hs.unmarked
    · rw [entry_drop_of_name (by decide)]
      cases h.world with
      | marked hmarked _ => exact absurd hs.unmarked hmarked.not_unmarked
      | made _ _ hsole =>
        exact absurd (hsole.only legacySave isPrimary_legacySave hs.regular) (by decide)
      | fresh _ _ _ habsent => exact habsent
      | legacy _ _ _ _ _ habsent => exact habsent

theorem sole_put_final {content : Text} (h : s.NoPrimary) :
    (s.put .saves finalSave (.file content)).Sole where
  regular := by
    rw [entry_put_self]
    rfl
  only name hname hfile := by
    rw [entry_put] at hfile
    split at hfile
    · rename_i heq
      exact heq.2
    · rw [h name hname] at hfile
      cases hfile

theorem Admissible.put_final {content : Text} (h : s.Admissible) (hunmarked : s.Unmarked)
    (hautosaves : s.NoAutosaves) (hprimary : s.NoPrimary) :
    (s.put .saves finalSave (.file content)).Admissible where
  creationRoots name hname := by
    rw [entry_put_of_place (by decide)]
    exact h.creationRoots name hname
  markerTemps name hname := by
    rw [entry_put_of_place (by decide)]
    exact h.markerTemps name hname
  version := by
    rw [entry_put_of_place (by decide)]
    exact h.version
  world := by
    refine .made ((entry_put_of_place (by decide)).trans hunmarked) ?_ (sole_put_final hprimary)
    intro name hname
    rw [entry_put_of_name]
    · exact hautosaves name hname
    · rintro rfl
      cases (show isAutosave finalSave = false by decide).symm.trans hname

theorem Admissible.put_marker {m : Marker} {content : Text} (h : s.Admissible)
    (hworld : (s.put .top m.name (.file content)).World) :
    (s.put .top m.name (.file content)).Admissible where
  creationRoots name hname := by
    rw [entry_put_of_name]
    · exact h.creationRoots name hname
    · rintro rfl
      revert hname
      cases m <;> decide
  markerTemps name hname := by
    rw [entry_put_of_name]
    · exact h.markerTemps name hname
    · rintro rfl
      revert hname
      cases m <;> decide
  version := by
    rw [entry_put]
    split
    · exact .inr rfl
    · exact h.version
  world := hworld

theorem Reads.put_marker {m : Marker} {content text : Text} (h : substitute content = text) :
    (s.put .top m.name (.file content)).Reads m.name text := ⟨content, entry_put_self, h⟩

theorem Sole.put_top {e : Entry} (h : s.Sole) : (s.put .top name e).Sole where
  regular := by
    rw [entry_put_of_place (by decide)]
    exact h.regular
  only name' hname hfile := by
    rw [entry_put_of_place (by decide)] at hfile
    exact h.only name' hname hfile

theorem Sole.drop_top (h : s.Sole) : (s.drop .top name).Sole where
  regular := by
    rw [entry_drop_of_place (by decide)]
    exact h.regular
  only name' hname hfile := by
    rw [entry_drop_of_place (by decide)] at hfile
    exact h.only name' hname hfile

theorem Plays.sole (hp : s.Plays s') (h : s.Sole) : s'.Sole where
  regular := by
    rcases hp.saves finalSave with hsame | htemp | hauto | ⟨-, hfile⟩
    · rw [hsame]
      exact h.regular
    · exact absurd htemp (by decide)
    · exact absurd hauto (by decide)
    · exact hfile
  only name hname hfile := by
    rcases hp.saves name with hsame | htemp | hauto | ⟨hfinal, -⟩
    · rw [hsame] at hfile
      exact h.only name hname hfile
    · cases (isTempSave_eq_false (isSave_of_isPrimary hname)).symm.trans htemp
    · simp [isPrimary, hauto] at hname
    · exact hfinal

/-- The server keeps what the next start-up relies on. -/
theorem Plays.admissible (hp : s.Plays s') (h : s.Admissible) (hmarked : s.Marked) (hsole : s.Sole) :
    s'.Admissible where
  creationRoots name hname := by
    rw [hp.own name (by simp [isOwn, hname])]
    exact h.creationRoots name hname
  markerTemps name hname := by
    rw [hp.own name (by simp [isOwn, hname])]
    exact h.markerTemps name hname
  version := by
    rw [hp.own _ (by decide)]
    exact h.version
  world := by
    obtain ⟨content, hentry, htext⟩ := hmarked
    exact .marked ⟨content, (hp.own _ (by decide)).trans hentry, htext⟩ (hp.sole hsole)

theorem Admissible.mvSave {root : Name} {x : Option Unit} (h : s.Admissible)
    (hroot : isCreationRoot root = true) (hpub : s.Publishes root)
    (hp : performs cfg (.mvSave root) s x s') : s'.Admissible := by
  obtain ⟨content, hmade⟩ := hpub.made
  obtain ⟨files, hfiles, hleaf⟩ := Option.bind_eq_some_iff.mp hmade
  simp only [performs, hfiles, hleaf, hpub.absent, if_true] at hp
  refine h.leads ?_ hp
  apply (h.put_root hroot).put_final
  · exact (entry_put_of_name (ne_of_isCreationRoot hroot).1).trans hpub.unmarked
  · intro name hname
    rw [entry_put_of_place (by decide)]
    exact hpub.noAutosaves name hname
  · intro name hname
    rw [entry_put_of_place (by decide)]
    exact hpub.noPrimary name hname

theorem Admissible.mvWorldMarker {temp : Name} {x : Option Unit} (h : s.Admissible)
    (htemp : Marker.world.isTemp temp = true) (hreads : s.Reads temp finalSave)
    (hunmarked : s.Unmarked) (hsole : s.Sole) (hp : performs cfg (.mvWorldMarker temp) s x s') :
    s'.Admissible := by
  obtain ⟨content, hentry, htext⟩ := hreads
  have hnone : s.entry .top worldMarker = none := hunmarked
  simp only [performs, hentry, hnone, if_true] at hp
  refine h.leads ?_ hp
  refine (h.drop_markerTemp (isMarkerTemp_of_isTemp htemp)).put_marker (m := .world) ?_
  exact .marked (.put_marker (m := .world) htext) hsole.drop_top.put_top

theorem Admissible.mvVersionMarker {temp : Name} {x : Option Unit} (h : s.Admissible)
    (htemp : Marker.version.isTemp temp = true) (hreads : s.Reads temp settings.version)
    (hmarked : s.Marked) (hsole : s.Sole) (hp : performs cfg (.mvVersionMarker temp) s x s') :
    s'.Admissible := by
  obtain ⟨content, hentry, -⟩ := hreads
  have hname := isMarkerTemp_of_isTemp htemp
  simp only [performs, hentry] at hp
  split at hp
  · exact h.fails hp
  · refine h.leads ((h.drop_markerTemp hname).put_marker (m := .version) ?_) hp
    refine .marked ?_ hsole.drop_top.put_top
    obtain ⟨content', hentry', htext'⟩ := hmarked
    refine ⟨content', ?_, htext'⟩
    rw [entry_put_of_name (by decide), entry_drop_of_name (ne_of_isMarkerTemp hname).1, hentry']

/-- Guarded commands keep a state admissible. -/
theorem Admissible.performs {r : Command} {x : r.Value} (h : s.Admissible)
    (hguard : guard settings s₀ r s) (hp : performs cfg r s x s') : s'.Admissible := by
  cases r with
  | realpathDirectory | realpathFile _ | mapfile | glob _ | entry _ _ | initialSave _ =>
    obtain ⟨rfl, -⟩ := hp
    exact h
  | mkdirs | cpConfig _ _ | chmodConfig _ => exact h.leads h hp
  | read _ _ | wc _ _ =>
    rcases hp with hfails | ⟨_, _, _, rfl⟩
    · exact h.fails hfails
    · exact h
  | date =>
    rcases hp with hfails | ⟨_, rfl⟩
    · exact h.fails hfails
    · exact h
  | rm p name =>
    cases p with
    | top => exact h.leads (h.drop_markerTemp hguard.1) hp
    | preUpgrade => exact hguard.elim
    | saves =>
      rcases hguard with ⟨htemp, -⟩ | ⟨rfl, -, happroved⟩
      · exact h.leads (h.drop_tempSave htemp) hp
      · exact h.leads (h.drop_legacy happroved) hp
  | rmTree name =>
    rcases hp with hleads | ⟨-, -, files, rfl⟩
    · exact h.leads (h.drop_root hguard) hleads
    · exact (h.put_root hguard).fail
  | rmForced name => exact h.leads (h.drop_markerTemp hguard) hp
  | mkdirStaging staging =>
    simp only [Factorio.performs] at hp
    split at hp
    · exact h.leads h.put_preUpgrade hp
    · exact h.fails hp
  | cpSave save staging =>
    simp only [Factorio.performs] at hp
    split at hp
    · exact h.writes hp
    · exact h.fails hp
  | writeMetadata staging text => exact h.writes hp
  | mvBackup staging target => exact h.movesBackup hp
  | mktempRoot =>
    rcases hp with hfails | ⟨random, -, ⟨-, rfl⟩ | ⟨-, rfl⟩⟩
    · exact h.fails hfails
    · exact h.put_root (isCreationRoot_append random)
    · exact (h.put_root (isCreationRoot_append random)).fail
  | mkdirRoot root | cpScenario root _ _ | chmodScenario root | writeConversion root _
  | chmodConversion root => exact h.within hguard hp
  | scenario2map root =>
    simp only [Factorio.performs] at hp
    split at hp
    · obtain ⟨files, ⟨-, rfl, -⟩ | rfl⟩ := hp
      · exact h.put_root hguard
      · exact (h.put_root hguard).fail
    · exact hp ▸ h.fail
  | mvSave root => exact h.mvSave hguard.1 hguard.2 hp
  | mktemp m =>
    have hname (random : Name) := isMarkerTemp_of_isTemp (isTemp_append m random)
    rcases hp with hfails | ⟨random, -, ⟨-, rfl⟩ | ⟨-, rfl⟩⟩
    · exact h.fails hfails
    · exact h.put_markerTemp (hname random)
    · exact (h.put_markerTemp (hname random)).fail
  | writeTemp name text =>
    simp only [Factorio.performs] at hp
    split at hp
    · rcases hp with ⟨-, rfl⟩ | ⟨-, content, rfl⟩
      · exact h.put_markerTemp hguard
      · exact (h.put_markerTemp hguard).fail
    · exact hp ▸ h.fail
  | mvWorldMarker temp =>
    obtain ⟨htemp, hreads, hunmarked, hsole⟩ := hguard
    exact h.mvWorldMarker htemp hreads hunmarked hsole hp
  | mvVersionMarker temp =>
    obtain ⟨htemp, hreads, hmarked, hsole, -⟩ := hguard
    exact h.mvVersionMarker htemp hreads hmarked hsole hp
  | exec =>
    rcases hp with hfails | ⟨-, rfl⟩
    · exact h.fails hfails
    · exact h

end State

def discipline (cfg : Sources) (settings : Settings) (s₀ : State) :
    Discipline PUnit Command Command.Value State :=
  .alone (performs cfg) (fun s => s₀.Admissible → s.Admissible) (guard settings s₀)
    fun _ _ _ _ hinv hguard hp h => (hinv h).performs hguard hp

end ClusterState.Factorio
