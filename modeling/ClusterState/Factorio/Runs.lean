import ClusterState.Factorio.Execution
import ClusterState.Factorio.Starting

/-! # Every run of the script

A run may be cut off after any command, and any of its commands may fail. What it
has done to the saves and to the backups by then is said here of all of them.
-/

namespace ClusterState.Factorio

open Concurrency State

section Runs

variable {cfg : Sources} {settings : Settings} {s t u v : State} {c : Run} {r : Command} {x : r.Value}
  {p : Place} {name : Name} {version : Text}

theorem RunsTo.meets (h : RunsTo cfg settings s c) :
    (s.Admissible → c.shared.Admissible) ∧ Ensures cfg settings s
      (fun _ u => u.Started settings.version) (c.procs ⟨⟩) c.shared :=
  ensures_script.reaches (D := discipline cfg settings s) (fun _ => Discipline.stable_alone)
    (fun _ => Discipline.stable_alone) id h

theorem RunsTo.guard (h : RunsTo cfg settings s c) {next : r.Value → Script Unit}
    (hask : c.procs ⟨⟩ = .ask r next) : guard settings s r c.shared := by
  obtain ⟨hinv, hmeets⟩ := h.meets
  rw [hask] at hmeets
  exact (hmeets c.shared .refl hinv).1

theorem RunsTo.preserves {P : State → Prop}
    (hP : ∀ r u x v, Factorio.guard settings s r u → performs cfg r u x v → P u → P v)
    (h : RunsTo cfg settings s c) (hs : P s) : P c.shared := by
  induction h with
  | refl => exact hs
  | tail hreach hstep ih =>
    cases hstep with
    | act i r next x s' hask hperforms =>
      have hruns : RunsTo cfg settings s _ := hreach
      exact hP r _ x s' (hruns.guard hask) hperforms ih
    | env s' henv => exact henv.elim

/-! ## What a command may change -/

def Command.Touches : Command → Place → Name → Prop
  | .rm p' name', p, name => p = p' ∧ name = name'
  | .rmTree name', p, name => p = .top ∧ name = name'
  | .rmForced name', p, name => p = .top ∧ name = name'
  | .mkdirStaging staging, p, name => p = .preUpgrade ∧ name = staging
  | .cpSave _ staging, p, name => p = .preUpgrade ∧ name = staging
  | .writeMetadata staging _, p, name => p = .preUpgrade ∧ name = staging
  | .mvBackup staging target, p, name => p = .preUpgrade ∧ (name = staging ∨ name = target)
  | .mktempRoot, p, name => p = .top ∧ isCreationRoot name = true
  | .mkdirRoot root, p, name => p = .top ∧ name = root
  | .cpScenario root _ _, p, name => p = .top ∧ name = root
  | .chmodScenario root, p, name => p = .top ∧ name = root
  | .writeConversion root _, p, name => p = .top ∧ name = root
  | .chmodConversion root, p, name => p = .top ∧ name = root
  | .scenario2map root, p, name => p = .top ∧ name = root
  | .mvSave root, p, name => p = .top ∧ name = root ∨ p = .saves ∧ name = finalSave
  | .mktemp m, p, name => p = .top ∧ m.isTemp name = true
  | .writeTemp name' _, p, name => p = .top ∧ name = name'
  | .mvWorldMarker temp, p, name => p = .top ∧ (name = temp ∨ name = worldMarker)
  | .mvVersionMarker temp, p, name => p = .top ∧ (name = temp ∨ name = versionMarker)
  | _, _, _ => False

def State.Same (p : Place) (name : Name) (t u : State) : Prop := u.entry p name = t.entry p name

theorem same_put {p' : Place} {name' : Name} {e : Entry} (h : ¬(p = p' ∧ name = name')) :
    State.Same p name t (t.put p' name' e) := by rw [State.Same, entry_put, if_neg h]

theorem same_drop {p' : Place} {name' : Name} (h : ¬(p = p' ∧ name = name')) :
    State.Same p name t (t.drop p' name') := by rw [State.Same, entry_drop, if_neg h]

theorem State.Same.entry (h : Same p name t u) : u.entry p name = t.entry p name := h

theorem State.Same.trans (h : Same p name t u) (h' : Same p name u v) : Same p name t v :=
  Eq.trans h' h

theorem State.Same.fail (h : Same p name t u) : Same p name t u.fail := entry_fail.trans h

theorem State.Same.fails {α : Type} {x : Option α} (h : t.Fails x u) : Same p name t u := by
  obtain ⟨-, rfl⟩ := h
  exact entry_fail

theorem State.Same.leads {x : Option Unit} (h : Same p name t u) (hleads : t.Leads u x v) :
    Same p name t v := by
  obtain ⟨-, rfl⟩ | ⟨-, rfl | rfl⟩ := hleads
  · exact h
  · exact entry_fail
  · exact h.fail

theorem State.Same.within {p' : Place} {name' : Name} {x : Option Unit} (h : ¬(p = p' ∧ name = name'))
    (hp : t.Within p' name' x u) : Same p name t u := by
  unfold Within at hp
  split at hp
  · obtain ⟨files, ⟨-, rfl⟩ | ⟨-, rfl⟩⟩ := hp
    · exact same_put h
    · exact (same_put h).fail
  · exact .fails hp

theorem State.Same.writes {p' : Place} {name' file : Name} {content : Text} {x : Option Unit}
    (h : ¬(p = p' ∧ name = name')) (hp : t.Writes p' name' file content x u) : Same p name t u := by
  unfold Writes at hp
  split at hp
  · obtain ⟨-, rfl⟩ | ⟨-, rfl | ⟨leaf, rfl⟩⟩ := hp
    · exact same_put h
    · exact entry_fail
    · exact (same_put h).fail
  · exact .fails hp

theorem State.Same.movesBackup {staging target : Name} {x : Option Unit}
    (h : ¬(p = .preUpgrade ∧ (name = staging ∨ name = target)))
    (hp : t.MovesBackup staging target x u) : Same p name t u := by
  have hdrop : Same p name t (t.drop .preUpgrade staging) := same_drop fun heq => h ⟨heq.1, .inl heq.2⟩
  have hput {files : Files} :
      Same p name t ((t.drop .preUpgrade staging).put .preUpgrade target (.directory files)) :=
    hdrop.trans (same_put fun heq => h ⟨heq.1, .inr heq.2⟩)
  unfold MovesBackup at hp
  split at hp
  · exact hput.leads hp
  · split at hp
    · exact .fails hp
    · exact hput.leads hp
  · exact hdrop.leads hp
  · exact .fails hp

theorem same_of_performs (hp : performs cfg r u x v) (h : ¬r.Touches p name) : Same p name u v := by
  cases r with
  | realpathDirectory | realpathFile _ | mapfile | glob _ | entry _ _ | initialSave _ =>
    obtain ⟨rfl, -⟩ := hp
    exact rfl
  | mkdirs | cpConfig _ _ | chmodConfig _ => exact State.Same.leads rfl hp
  | read _ _ | wc _ _ =>
    rcases hp with hfails | ⟨_, _, _, rfl⟩
    · exact .fails hfails
    · exact rfl
  | date =>
    rcases hp with hfails | ⟨_, rfl⟩
    · exact .fails hfails
    · exact rfl
  | rm _ _ | rmForced _ => exact (same_drop h).leads hp
  | rmTree name' =>
    rcases hp with hleads | ⟨-, -, files, rfl⟩
    · exact (same_drop h).leads hleads
    · exact (same_put h).fail
  | mkdirStaging staging =>
    simp only [performs] at hp
    split at hp
    · exact (same_put h).leads hp
    · exact .fails hp
  | cpSave save staging =>
    simp only [performs] at hp
    split at hp
    · exact .writes h hp
    · exact .fails hp
  | writeMetadata staging text => exact .writes h hp
  | mvBackup staging target => exact .movesBackup h hp
  | mktempRoot =>
    have hne (random : Name) : ¬(p = .top ∧ name = creationRootPrefix ++ random) := by
      rintro ⟨rfl, rfl⟩
      exact h ⟨rfl, isCreationRoot_append random⟩
    rcases hp with hfails | ⟨random, -, ⟨-, rfl⟩ | ⟨-, rfl⟩⟩
    · exact .fails hfails
    · exact same_put (hne random)
    · exact (same_put (hne random)).fail
  | mkdirRoot root | cpScenario root _ _ | chmodScenario root | writeConversion root _
  | chmodConversion root => exact .within h hp
  | scenario2map root =>
    simp only [performs] at hp
    split at hp
    · obtain ⟨files, ⟨-, rfl, -⟩ | rfl⟩ := hp
      · exact same_put h
      · exact (same_put h).fail
    · exact hp ▸ entry_fail
  | mvSave root =>
    obtain ⟨hroot, hfinal⟩ := not_or.mp h
    simp only [performs] at hp
    split at hp
    · split at hp
      · split at hp
        · exact ((same_put hroot).trans (same_put hfinal)).leads hp
        · exact hp ▸ entry_fail
      · exact .fails hp
    · exact .fails hp
  | mktemp m =>
    have hne (random : Name) : ¬(p = .top ∧ name = m.tempPrefix ++ random) := by
      rintro ⟨rfl, rfl⟩
      exact h ⟨rfl, isTemp_append m random⟩
    rcases hp with hfails | ⟨random, -, ⟨-, rfl⟩ | ⟨-, rfl⟩⟩
    · exact .fails hfails
    · exact same_put (hne random)
    · exact (same_put (hne random)).fail
  | writeTemp name' text =>
    simp only [performs] at hp
    split at hp
    · rcases hp with ⟨-, rfl⟩ | ⟨-, content, rfl⟩
      · exact same_put h
      · exact (same_put h).fail
    · exact hp ▸ entry_fail
  | mvWorldMarker temp =>
    have hmoved {e : Entry} : Same p name u ((u.drop .top temp).put .top worldMarker e) :=
      (same_drop fun heq => h ⟨heq.1, .inl heq.2⟩).trans (same_put fun heq => h ⟨heq.1, .inr heq.2⟩)
    simp only [performs] at hp
    split at hp
    · split at hp
      · exact hmoved.leads hp
      · exact hp ▸ entry_fail
    · exact .fails hp
  | mvVersionMarker temp =>
    have hmoved {e : Entry} : Same p name u ((u.drop .top temp).put .top versionMarker e) :=
      (same_drop fun heq => h ⟨heq.1, .inl heq.2⟩).trans (same_put fun heq => h ⟨heq.1, .inr heq.2⟩)
    simp only [performs] at hp
    split at hp
    · split at hp
      · exact .fails hp
      · exact hmoved.leads hp
    · exact .fails hp
  | exec =>
    rcases hp with hfails | ⟨-, rfl⟩
    · exact .fails hfails
    · exact rfl

/-! ## The saves -/

inductive State.Fate (version : Text) (s t : State) (name : Name) : Prop
  | same (h : Same .saves name s t)
  | removed (hname : isTempSave name = true) (hfile : isFile (s.entry .saves name) = true)
      (hgone : t.entry .saves name = none)
  | replaced (hname : name = legacySave) (happroved : s.Approved version)
      (hgone : t.entry .saves name = none)
  | made (hname : name = finalSave) (habsent : s.entry .saves name = none)
      (hfile : isFile (t.entry .saves name) = true)

theorem State.SameWorld.symm (h : s.SameWorld t) : t.SameWorld s :=
  ⟨h.marker.symm, h.version.symm, fun name hname => (h.saves name hname).symm⟩

theorem State.SameWorld.approved (h : s.SameWorld t) (hs : s.Approved version) :
    t.Approved version where
  unmarked := h.unmarked hs.unmarked
  noAutosaves := h.noAutosaves hs.noAutosaves
  regular := by
    rw [h.isFile (isSave_of_isPrimary isPrimary_legacySave)]
    exact hs.regular
  only := h.onlyPrimary hs.only
  lastStarted := h.lastStarted.trans hs.lastStarted
  version := hs.version

theorem State.Fate.of_same (h : s.Fate version u name) (hsame : Same .saves name u v) :
    s.Fate version v name := by
  cases h with
  | same h => exact .same (h.trans hsame)
  | removed hname hfile hgone => exact .removed hname hfile (hsame.entry.trans hgone)
  | replaced hname happroved hgone => exact .replaced hname happroved (hsame.entry.trans hgone)
  | made hname habsent hfile =>
    refine .made hname habsent ?_
    rw [hsame.entry]
    exact hfile

theorem State.Fate.removed_of (h : s.Fate version u name) (hname : isTempSave name = true)
    (hfile : isFile (u.entry .saves name) = true) : isFile (s.entry .saves name) = true := by
  cases h with
  | same h =>
    rw [← h.entry]
    exact hfile
  | removed _ hfile _ => exact hfile
  | replaced hlegacy _ _ =>
    subst hlegacy
    exact absurd hname (by decide)
  | made hfinal _ _ =>
    subst hfinal
    exact absurd hname (by decide)

theorem State.Fate.absent (h : s.Fate version u finalSave) (hnone : u.entry .saves finalSave = none) :
    s.entry .saves finalSave = none := by
  cases h with
  | same h => exact h.entry.symm.trans hnone
  | removed hname _ _ => exact absurd hname (by decide)
  | replaced hname _ _ => exact absurd hname (by decide)
  | made _ habsent _ => exact habsent

theorem regular_of_mvSave {root : Name} {x : Option Unit} (hpub : u.Publishes root)
    (hp : performs cfg (.mvSave root) u x v) :
    Same .saves finalSave u v ∨ isFile (v.entry .saves finalSave) = true := by
  obtain ⟨content, hmade⟩ := hpub.made
  obtain ⟨files, hfiles, hleaf⟩ := Option.bind_eq_some_iff.mp hmade
  simp only [performs, hfiles, hleaf, hpub.absent, if_true] at hp
  obtain ⟨-, rfl⟩ | ⟨-, rfl | rfl⟩ := hp
  · right
    rw [entry_put_self]
    rfl
  · exact .inl entry_fail
  · right
    rw [entry_fail, entry_put_self]
    rfl

theorem State.Fate.step (h : s.Fate settings.version u name) (hguard : guard settings s r u)
    (hp : performs cfg r u x v) : s.Fate settings.version v name := by
  by_cases htouches : r.Touches .saves name
  · cases r with
    | rm p name' =>
      obtain ⟨rfl, rfl⟩ := htouches
      have hgone : Same .saves name u v ∨ v.entry .saves name = none := by
        obtain ⟨-, rfl⟩ | ⟨-, rfl | rfl⟩ := hp
        · exact .inr entry_drop_self
        · exact .inl entry_fail
        · exact .inr (entry_fail.trans entry_drop_self)
      rcases hgone with hsame | hgone
      · exact h.of_same hsame
      rcases hguard with ⟨hname, hfile⟩ | ⟨hname, hworld, happroved⟩
      · exact .removed hname (h.removed_of hname hfile) hgone
      · exact .replaced hname (hworld.symm.approved happroved) hgone
    | mvSave root =>
      obtain ⟨hplace, -⟩ | ⟨-, rfl⟩ := htouches
      · cases hplace
      rcases regular_of_mvSave hguard.2 hp with hsame | hfile
      · exact h.of_same hsame
      · exact .made rfl (h.absent hguard.2.absent) hfile
    | _ => simp [Command.Touches] at htouches
  · exact h.of_same (same_of_performs hp htouches)

theorem RunsTo.fate (h : RunsTo cfg settings s c) (name : Name) :
    s.Fate settings.version c.shared name :=
  h.preserves (P := fun u => s.Fate settings.version u name)
    (fun _ _ _ _ hguard hp hfate => hfate.step hguard hp) (.same rfl)

theorem State.Fate.isSave_cases (h : s.Fate version t name) (hname : isSave name = true) {e : Entry}
    (hentry : s.entry .saves name = some e) :
    t.entry .saves name = some e ∨ name = legacySave ∧ s.Approved version := by
  cases h with
  | same h => exact .inl (h.entry.trans hentry)
  | removed htemp _ _ => cases (isTempSave_eq_false hname).symm.trans htemp
  | replaced hlegacy happroved _ => exact .inr ⟨hlegacy, happroved⟩
  | made _ habsent _ => cases habsent.symm.trans hentry

theorem State.Fate.none_cases (h : s.Fate version t name) (hnone : s.entry .saves name = none) :
    t.entry .saves name = none ∨ name = finalSave := by
  cases h with
  | same h => exact .inl (h.entry.trans hnone)
  | removed _ _ hgone => exact .inl hgone
  | replaced _ _ hgone => exact .inl hgone
  | made hname _ _ => exact .inr hname

/-- Wherever the script is cut off, and whatever has failed: every save is as it was, but for
the one old world that may be replaced, and nothing is new but the world where there was none. -/
theorem saves_kept (h : RunsTo cfg settings s c) (name : Name) :
    (∀ e, isSave name = true → s.entry .saves name = some e →
      c.shared.entry .saves name = some e ∨ name = legacySave ∧ s.Approved settings.version) ∧
    (s.entry .saves name = none → c.shared.entry .saves name = none ∨ name = finalSave) :=
  ⟨fun _ hname hentry => (h.fate name).isSave_cases hname hentry, fun hnone => (h.fate name).none_cases hnone⟩

namespace Sample

theorem entry_started_top (hworld : name ≠ worldMarker) (hversion : name ≠ versionMarker) :
    started.entry .top name = none := by
  change AList.lookup name started.top = none
  rw [started, AList.lookup_insert_ne hversion]
  exact AList.lookup_eq_none.mpr fun h => hworld (List.mem_singleton.mp h)

theorem entry_started_saves (hname : name ≠ finalSave) : started.entry .saves name = none :=
  AList.lookup_eq_none.mpr fun h => hname (List.mem_singleton.mp h)

theorem started_marked : started.Marked :=
  ⟨"friendly-factories.zip\n".toList, rfl, by decide +kernel⟩

theorem started_sole : started.Sole where
  regular := by decide +kernel
  only name _ hfile := by
    by_contra hne
    rw [entry_started_saves hne] at hfile
    cases hfile

theorem started_noLinks : started.NoLinks := by
  intro name hlink
  cases hlink

theorem started_upgrades : started.Upgrades Sample.settings.version where
  regular := by decide +kernel
  started := by decide +kernel
  other := by decide +kernel

end Sample

/-- The start of the next version leaves the world as it is. -/
theorem saves_kept_upgrades : ∃ c, RunsTo Sample.sources Sample.settings Sample.started c ∧
    returned (c.procs ⟨⟩) = true ∧ c.shared.entry .saves finalSave = some (.file "world".toList) := by
  obtain ⟨c, hrun, hreturned, -⟩ := Sample.upgrades
  obtain ⟨hkept, -⟩ := saves_kept hrun finalSave
  refine ⟨c, hrun, hreturned, ?_⟩
  exact (hkept _ (by decide) rfl).resolve_right fun h => absurd h.1 (by decide)

/-! ## The markers -/

def Marker.mv : Marker → Name → Command
  | .world => .mvWorldMarker
  | .version => .mvVersionMarker

theorem Command.Touches.marker {m : Marker} (htouches : r.Touches .top m.name)
    (hguard : guard settings s r u) :
    ∃ temp, r = m.mv temp := by
  have hroot {root : Name} (hroot : isCreationRoot root = true) : m.name ≠ root := by
    cases m
    · exact (ne_of_isCreationRoot hroot).1
    · exact (ne_of_isCreationRoot hroot).2
  have htemp {temp : Name} (htemp : isMarkerTemp temp = true) : m.name ≠ temp := by
    cases m
    · exact (ne_of_isMarkerTemp htemp).1
    · exact (ne_of_isMarkerTemp htemp).2
  cases r with
  | rm p name' =>
    obtain ⟨rfl, hname⟩ := htouches
    exact absurd hname (htemp hguard.1)
  | rmForced name' => exact absurd htouches.2 (htemp hguard)
  | writeTemp name' text => exact absurd htouches.2 (htemp hguard)
  | rmTree name' => exact absurd htouches.2 (hroot hguard)
  | mktempRoot => exact absurd rfl (hroot htouches.2)
  | mktemp m' => exact absurd rfl (htemp (isMarkerTemp_of_isTemp htouches.2))
  | mkdirRoot root | cpScenario root _ _ | chmodScenario root | writeConversion root _
  | chmodConversion root | scenario2map root => exact absurd htouches.2 (hroot hguard)
  | mvSave root =>
    obtain ⟨-, hname⟩ | ⟨hplace, -⟩ := htouches
    · exact absurd hname (hroot hguard.1)
    · cases hplace
  | mvWorldMarker temp =>
    obtain ⟨-, hname | hname⟩ := htouches
    · exact absurd hname (htemp (isMarkerTemp_of_isTemp hguard.1))
    · cases m with
      | world => exact ⟨temp, rfl⟩
      | version => exact absurd hname (by decide)
  | mvVersionMarker temp =>
    obtain ⟨-, hname | hname⟩ := htouches
    · exact absurd hname (htemp (isMarkerTemp_of_isTemp hguard.1))
    · cases m with
      | world => exact absurd hname (by decide)
      | version => exact ⟨temp, rfl⟩
  | _ => simp [Command.Touches] at htouches

/-! ## The backups -/

/-- The backups that were there still hold what they held. -/
def State.KeepsBackups (s t : State) : Prop :=
  ∀ name files, s.entry .preUpgrade name = some (.directory files) →
    ∃ files', t.entry .preUpgrade name = some (.directory files') ∧
      ∀ key leaf, files.lookup key = some leaf → files'.lookup key = some leaf

theorem lookup_nested_of_some {staging key : Name} {files target : Files} {leaf : Leaf}
    (hfree : occupied staging target = false) (hkey : target.lookup key = some leaf) :
    (nested staging files target).lookup key = some leaf := by
  rw [← hkey]
  refine lookup_foldl_insert_of_ne (f := fun name => staging ++ '/' :: name) fun file _ => ?_
  rintro rfl
  have hmem : staging ++ '/' :: file.1 ∈ target.keys :=
    AList.lookup_isSome.mp (Option.isSome_of_eq_some hkey)
  have hstarts : (staging ++ ['/']).isPrefixOf (staging ++ '/' :: file.1) = true := by
    rw [List.isPrefixOf_iff_prefix]
    exact ⟨file.1, by simp⟩
  have hoccupied : occupied staging target = true :=
    List.any_eq_true.mpr ⟨_, hmem, by rw [hstarts, Bool.or_true]⟩
  cases hfree.symm.trans hoccupied

theorem keeps_of_movesBackup {staging target : Name} {files : Files} {x : Option Unit}
    (hentry : u.entry .preUpgrade target = some (.directory files))
    (hp : u.MovesBackup staging target x v) :
    ∃ files', v.entry .preUpgrade target = some (.directory files') ∧
      ∀ key leaf, files.lookup key = some leaf → files'.lookup key = some leaf := by
  have hfails (h : u.Fails x v) : ∃ files', v.entry .preUpgrade target = some (.directory files') ∧
      ∀ key leaf, files.lookup key = some leaf → files'.lookup key = some leaf :=
    ⟨files, (Same.fails h).entry.trans hentry, fun _ _ => id⟩
  rw [MovesBackup, hentry] at hp
  split at hp
  · rename_i heq
    cases heq
  · rename_i staged targetFiles hstaged heq
    cases heq
    split at hp
    · exact hfails hp
    · rename_i hfree
      rw [Bool.not_eq_true] at hfree
      obtain ⟨-, rfl⟩ | ⟨-, rfl | rfl⟩ := hp
      · exact ⟨_, entry_put_self, fun _ _ => lookup_nested_of_some hfree⟩
      · exact ⟨files, entry_fail.trans hentry, fun _ _ => id⟩
      · exact ⟨_, entry_fail.trans entry_put_self, fun _ _ => lookup_nested_of_some hfree⟩
  · rename_i heq
    cases heq
  · exact hfails hp

theorem State.KeepsBackups.step (h : s.KeepsBackups u) (hguard : guard settings s r u)
    (hp : performs cfg r u x v) : s.KeepsBackups v := by
  intro name files hentry
  obtain ⟨files', hentry', hfiles⟩ := h name files hentry
  by_cases htouches : r.Touches .preUpgrade name
  · have hfresh {staging : Name} (hbacksUp : s.BacksUp staging u) : name ≠ staging := by
      rintro rfl
      cases hbacksUp.fresh.symm.trans hentry
    cases r with
    | rm p name' =>
      obtain ⟨rfl, -⟩ := htouches
      exact hguard.elim
    | mkdirStaging staging =>
      obtain ⟨-, rfl⟩ := htouches
      simp only [performs, hentry'] at hp
      exact ⟨files', (Same.fails hp).entry.trans hentry', hfiles⟩
    | cpSave save staging => exact absurd htouches.2 (hfresh hguard)
    | writeMetadata staging text => exact absurd htouches.2 (hfresh hguard)
    | mvBackup staging target =>
      obtain ⟨-, hname | rfl⟩ := htouches
      · exact absurd hname (hfresh hguard.2)
      · obtain ⟨files'', hentry'', hfiles'⟩ := keeps_of_movesBackup hentry' hp
        exact ⟨files'', hentry'', fun key leaf hkey => hfiles' key leaf (hfiles key leaf hkey)⟩
    | _ => simp [Command.Touches] at htouches
  · exact ⟨files', (same_of_performs hp htouches).entry.trans hentry', hfiles⟩

theorem RunsTo.keepsBackups (h : RunsTo cfg settings s c) : s.KeepsBackups c.shared :=
  h.preserves (P := s.KeepsBackups) (fun _ _ _ _ hguard hp hkeeps => hkeeps.step hguard hp)
    fun _ files hentry => ⟨files, hentry, fun _ _ => id⟩

theorem Command.Touches.preUpgrade (htouches : r.Touches .preUpgrade name)
    (hguard : guard settings s r u) :
    Same .top versionMarker s u ∧ ∀ name', ¬r.Touches .top name' := by
  cases r with
  | rm p name' =>
    obtain ⟨rfl, -⟩ := htouches
    exact hguard.elim
  | mkdirStaging staging => exact ⟨hguard, by simp [Command.Touches]⟩
  | cpSave save staging => exact ⟨hguard.version, by simp [Command.Touches]⟩
  | writeMetadata staging text => exact ⟨hguard.version, by simp [Command.Touches]⟩
  | mvBackup staging target => exact ⟨hguard.2.version, by simp [Command.Touches]⟩
  | _ => simp [Command.Touches] at htouches

/-- While the version marker is as it was, no backup is needed. -/
def State.Unless (settings : Settings) (s t : State) : Prop :=
  Same .top versionMarker s t ∨ s.Copied settings t

theorem State.Unless.step (hlinks : s.NoLinks) (hupgrades : s.Upgrades settings.version)
    (h : s.Unless settings u) (hguard : guard settings s r u) (hp : performs cfg r u x v) :
    s.Unless settings v := by
  by_cases htouches : ∃ name, r.Touches .preUpgrade name
  · obtain ⟨name, htouches⟩ := htouches
    obtain ⟨hsame, hnot⟩ := htouches.preUpgrade hguard
    exact .inl (hsame.trans (same_of_performs hp (hnot _)))
  · have hkeep (name : Name) : Same .preUpgrade name u v :=
      same_of_performs hp fun h => htouches ⟨name, h⟩
    by_cases hversion : r.Touches .top versionMarker
    · obtain ⟨temp, rfl⟩ := hversion.marker (m := .version) hguard
      obtain ⟨-, -, -, -, hbacked⟩ := hguard
      exact .inr ((hbacked hlinks hupgrades).of_preUpgrade fun name => (hkeep name).entry)
    · rcases h with hsame | hcopied
      · exact .inl (hsame.trans (same_of_performs hp hversion))
      · exact .inr (hcopied.of_preUpgrade fun name => (hkeep name).entry)

theorem RunsTo.unless (h : RunsTo cfg settings s c) (hlinks : s.NoLinks)
    (hupgrades : s.Upgrades settings.version) : s.Unless settings c.shared :=
  h.preserves (P := s.Unless settings)
    (fun _ _ _ _ hguard hp h => h.step hlinks hupgrades hguard hp) (.inl rfl)

/-- A run over the world of another version leaves its version marker alone until every
regular save has been copied. -/
theorem copied_before_upgrade (hlinks : s.NoLinks) (hupgrades : s.Upgrades settings.version)
    (h : RunsTo cfg settings s c) :
    c.shared.entry .top versionMarker = s.entry .top versionMarker ∨ s.Copied settings c.shared :=
  h.unless hlinks hupgrades

/-- The next version makes its copy, and leaves its mark. -/
theorem copied_before_upgrades : ∃ c, RunsTo Sample.sources Sample.settings Sample.started c ∧
    returned (c.procs ⟨⟩) = true ∧
    c.shared.entry .top versionMarker ≠ Sample.started.entry .top versionMarker ∧
    Sample.started.Copied Sample.settings c.shared := by
  obtain ⟨c, hrun, hreturned, hmarker⟩ := Sample.upgrades
  have hne : c.shared.entry .top versionMarker ≠ Sample.started.entry .top versionMarker := by
    rw [hmarker]
    intro heq
    exact absurd (Entry.file.inj (Option.some.inj heq)) (by decide)
  refine ⟨c, hrun, hreturned, hne, ?_⟩
  exact (copied_before_upgrade Sample.started_noLinks Sample.started_upgrades hrun).resolve_left hne

/-- The server is started, and the script is left, only where both markers tell what is there,
and another version only finds the world once its saves have been copied. -/
theorem started_of_runsTo (h : RunsTo cfg settings s c)
    (hserver : c.procs ⟨⟩ = .done () ∨ ∃ next, c.procs ⟨⟩ = .ask .exec next) :
    c.shared.Started settings.version ∧
      (s.NoLinks → s.Upgrades settings.version → s.Copied settings c.shared) := by
  have hstarted : c.shared.Started settings.version := by
    rcases hserver with hdone | ⟨next, hask⟩
    · have hmeets := h.meets.2
      rw [hdone] at hmeets
      exact hmeets
    · obtain ⟨hmarked, hsole, hversion⟩ := h.guard hask
      exact ⟨hmarked, hsole, hversion⟩
  refine ⟨hstarted, fun hlinks hupgrades => ?_⟩
  refine (h.unless hlinks hupgrades).resolve_left fun hsame => hupgrades.other ?_
  rw [← hstarted.lastStarted, State.lastStarted, State.lastStarted, hsame.entry]

/-- The server of the next version is started, with a copy of the world there. -/
theorem started_of_upgrades : ∃ c, RunsTo Sample.sources Sample.settings Sample.started c ∧
    c.shared.Started Sample.settings.version ∧ Sample.started.Copied Sample.settings c.shared := by
  obtain ⟨c, hrun, hreturned, -⟩ := Sample.upgrades
  obtain ⟨hstarted, hbacked⟩ := started_of_runsTo hrun (.inl (eq_done_of_returned hreturned))
  exact ⟨c, hrun, hstarted, hbacked Sample.started_noLinks Sample.started_upgrades⟩

end Runs

end ClusterState.Factorio
