import ClusterState.Factorio.Effects

/-! # The states a start-up can leave behind

A state is admissible when the start-up can make a world in it or find the one that
is there. Every command, issued as the script issues it, leads from an
admissible state to another one, even when it fails.
-/

namespace ClusterState.Factorio

namespace State

variable {s s' t : State} {name : Name}

def Reads (s : State) (name : Name) (text : Text) : Prop :=
  ∃ content, s.entry .top name = some (.file content) ∧ substitute content = text

def Marked (s : State) : Prop := s.Reads worldMarker finalSave

def Unmarked (s : State) : Prop := s.entry .top worldMarker = none

def lastStarted (s : State) : Text :=
  match s.entry .top versionMarker with
  | some (.file content) => substitute content
  | _ => []

def NoAutosaves (s : State) : Prop :=
  ∀ name, isAutosave name = true → isFile (s.entry .saves name) = false

def OnlyPrimary (s : State) (only : Name) : Prop :=
  ∀ name, isPrimary name = true → isFile (s.entry .saves name) = true → name = only

def NoPrimary (s : State) : Prop :=
  ∀ name, isPrimary name = true → isFile (s.entry .saves name) = false

structure Sole (s : State) : Prop where
  regular : isFile (s.entry .saves finalSave) = true
  only : s.OnlyPrimary finalSave

inductive World (s : State) : Prop
  | marked (hmarked : s.Marked) (hsole : s.Sole)
  | made (hunmarked : s.Unmarked) (hautosaves : s.NoAutosaves) (hsole : s.Sole)
  | fresh (hunmarked : s.Unmarked) (hautosaves : s.NoAutosaves) (hprimary : s.NoPrimary)
      (habsent : s.entry .saves finalSave = none)
  | legacy (hunmarked : s.Unmarked) (hautosaves : s.NoAutosaves) (hprimary : s.OnlyPrimary legacySave)
      (hlegacy : isFile (s.entry .saves legacySave) = true) (hversion : s.lastStarted = legacyVersion)
      (habsent : s.entry .saves finalSave = none)

structure Admissible (s : State) : Prop where
  creationRoots : ∀ name, isCreationRoot name = true → s.entry .top name = none ∨
    isDirectory (s.entry .top name) = true
  markerTemps : ∀ name, isMarkerTemp name = true → s.entry .top name = none ∨
    isFile (s.entry .top name) = true
  version : s.entry .top versionMarker = none ∨ isFile (s.entry .top versionMarker) = true
  world : s.World

structure Ready (s : State) (current : Text) : Prop extends Admissible s where
  legacy : isFile (s.entry .saves legacySave) = true → current = legacyVersion

/-! ## What the script does not touch -/

structure SameWorld (s s' : State) : Prop where
  marker : s'.entry .top worldMarker = s.entry .top worldMarker
  version : s'.entry .top versionMarker = s.entry .top versionMarker
  saves : ∀ name, isSave name = true → s'.entry .saves name = s.entry .saves name

theorem SameWorld.refl (s : State) : s.SameWorld s := ⟨rfl, rfl, fun _ _ => rfl⟩

theorem SameWorld.trans (h : s.SameWorld t) (h' : t.SameWorld s') : s.SameWorld s' where
  marker := h'.marker.trans h.marker
  version := h'.version.trans h.version
  saves name hname := (h'.saves name hname).trans (h.saves name hname)

theorem SameWorld.fail (h : s.SameWorld s') : s.SameWorld s'.fail where
  marker := entry_fail.trans h.marker
  version := entry_fail.trans h.version
  saves name hname := entry_fail.trans (h.saves name hname)

theorem SameWorld.marked (h : s.SameWorld s') (hs : s.Marked) : s'.Marked := by
  obtain ⟨content, hentry, htext⟩ := hs
  exact ⟨content, h.marker.trans hentry, htext⟩

theorem SameWorld.unmarked (h : s.SameWorld s') (hs : s.Unmarked) : s'.Unmarked :=
  h.marker.trans hs

theorem SameWorld.lastStarted (h : s.SameWorld s') : s'.lastStarted = s.lastStarted := by
  rw [State.lastStarted, State.lastStarted, h.version]

theorem SameWorld.isFile (h : s.SameWorld s') (hname : isSave name = true) :
    isFile (s'.entry .saves name) = isFile (s.entry .saves name) := by
  rw [h.saves name hname]

theorem SameWorld.noAutosaves (h : s.SameWorld s') (hs : s.NoAutosaves) : s'.NoAutosaves := by
  intro name hname
  rw [h.isFile (isSave_of_isAutosave hname)]
  exact hs name hname

theorem SameWorld.noPrimary (h : s.SameWorld s') (hs : s.NoPrimary) : s'.NoPrimary := by
  intro name hname
  rw [h.isFile (isSave_of_isPrimary hname)]
  exact hs name hname

theorem SameWorld.onlyPrimary {only : Name} (h : s.SameWorld s') (hs : s.OnlyPrimary only) :
    s'.OnlyPrimary only := by
  intro name hname hfile
  rw [h.isFile (isSave_of_isPrimary hname)] at hfile
  exact hs name hname hfile

theorem SameWorld.final (h : s.SameWorld s') :
    s'.entry .saves finalSave = s.entry .saves finalSave :=
  h.saves _ (isSave_of_isPrimary isPrimary_finalSave)

theorem SameWorld.sole (h : s.SameWorld s') (hs : s.Sole) : s'.Sole where
  regular := by
    rw [h.final]
    exact hs.regular
  only := h.onlyPrimary hs.only

theorem SameWorld.world (h : s.SameWorld s') (hs : s.World) : s'.World := by
  cases hs with
  | marked hmarked hsole => exact .marked (h.marked hmarked) (h.sole hsole)
  | made hunmarked hautosaves hsole =>
    exact .made (h.unmarked hunmarked) (h.noAutosaves hautosaves) (h.sole hsole)
  | fresh hunmarked hautosaves hprimary habsent =>
    exact .fresh (h.unmarked hunmarked) (h.noAutosaves hautosaves) (h.noPrimary hprimary)
      (h.final.trans habsent)
  | legacy hunmarked hautosaves hprimary hlegacy hversion habsent =>
    refine .legacy (h.unmarked hunmarked) (h.noAutosaves hautosaves) (h.onlyPrimary hprimary) ?_
      (h.lastStarted.trans hversion) (h.final.trans habsent)
    rw [h.isFile (isSave_of_isPrimary isPrimary_legacySave)]
    exact hlegacy

end State

/-! ## Names of the directory itself -/

section Names

variable {name : Name}

theorem eq_false_of_prefixes {p q : Name} (hpq : p.isPrefixOf q = false) (hqp : q.isPrefixOf p = false)
    (hp : p.isPrefixOf name = true) : q.isPrefixOf name = false := by
  rw [← Bool.not_eq_true, List.isPrefixOf_iff_prefix] at *
  intro hq
  rcases List.prefix_or_prefix_of_prefix hp hq with h | h
  · exact hpq h
  · exact hqp h

theorem isMarkerTemp_cases (h : isMarkerTemp name = true) :
    Marker.world.isTemp name = true ∨ Marker.version.isTemp name = true ∨ name = versionMarkerTemp := by
  rw [isMarkerTemp, Bool.or_eq_true, Bool.or_eq_true, beq_iff_eq, or_assoc] at h
  exact h

theorem isMarkerTemp_of_isTemp {m : Marker} (h : m.isTemp name = true) : isMarkerTemp name = true := by
  cases m <;> simp [isMarkerTemp, h]

theorem isCreationRoot_of_isMarkerTemp (h : isMarkerTemp name = true) : isCreationRoot name = false := by
  rcases isMarkerTemp_cases h with hworld | hversion | rfl
  · exact eq_false_of_prefixes (by decide) (by decide) hworld
  · exact eq_false_of_prefixes (by decide) (by decide) hversion
  · decide

theorem ne_of_isMarkerTemp (h : isMarkerTemp name = true) :
    worldMarker ≠ name ∧ versionMarker ≠ name := by
  constructor
  · rintro rfl
    cases (show isMarkerTemp worldMarker = false by decide).symm.trans h
  · rintro rfl
    cases (show isMarkerTemp versionMarker = false by decide).symm.trans h

theorem ne_of_isCreationRoot (h : isCreationRoot name = true) :
    worldMarker ≠ name ∧ versionMarker ≠ name := by
  constructor
  · rintro rfl
    cases (show isCreationRoot worldMarker = false by decide).symm.trans h
  · rintro rfl
    cases (show isCreationRoot versionMarker = false by decide).symm.trans h

theorem world_isTemp_of_version (h : Marker.version.isTemp name = true) :
    Marker.world.isTemp name = false := eq_false_of_prefixes (by decide) (by decide) h

theorem isTemp_append (m : Marker) (random : Name) : m.isTemp (m.tempPrefix ++ random) = true := by
  rw [Marker.isTemp, List.isPrefixOf_iff_prefix]
  exact List.prefix_append _ _

theorem isCreationRoot_append (random : Name) : isCreationRoot (creationRootPrefix ++ random) = true := by
  rw [isCreationRoot, List.isPrefixOf_iff_prefix]
  exact List.prefix_append _ _

end Names

namespace State

variable {s s' t : State} {name : Name} {e : Entry} {x : Option Unit}

/-! ## One step -/

theorem SameWorld.put_top (h : worldMarker ≠ name ∧ versionMarker ≠ name) :
    s.SameWorld (s.put .top name e) :=
  ⟨entry_put_of_name h.1, entry_put_of_name h.2, fun _ _ => entry_put_of_place (by decide)⟩

theorem SameWorld.drop_top (h : worldMarker ≠ name ∧ versionMarker ≠ name) :
    s.SameWorld (s.drop .top name) :=
  ⟨entry_drop_of_name h.1, entry_drop_of_name h.2, fun _ _ => entry_drop_of_place (by decide)⟩

theorem Admissible.of_same (h : s.Admissible)
    (hown : ∀ name, isOwn name = true → s'.entry .top name = s.entry .top name)
    (hsaves : ∀ name, isSave name = true → s'.entry .saves name = s.entry .saves name) :
    s'.Admissible where
  creationRoots name hname := by
    rw [hown name (by simp [isOwn, hname])]
    exact h.creationRoots name hname
  markerTemps name hname := by
    rw [hown name (by simp [isOwn, hname])]
    exact h.markerTemps name hname
  version := by
    rw [hown versionMarker (by decide)]
    exact h.version
  world := SameWorld.world ⟨hown _ (by decide), hown _ (by decide), hsaves⟩ h.world

theorem Admissible.fail (h : s.Admissible) : s.fail.Admissible :=
  h.of_same (fun _ _ => entry_fail) fun _ _ => entry_fail

theorem Admissible.put_preUpgrade (h : s.Admissible) : (s.put .preUpgrade name e).Admissible :=
  h.of_same (fun _ _ => entry_put_of_place (by decide)) fun _ _ => entry_put_of_place (by decide)

theorem Admissible.drop_preUpgrade (h : s.Admissible) : (s.drop .preUpgrade name).Admissible :=
  h.of_same (fun _ _ => entry_drop_of_place (by decide)) fun _ _ => entry_drop_of_place (by decide)

theorem Admissible.drop_tempSave (h : s.Admissible) (hname : isTempSave name = true) :
    (s.drop .saves name).Admissible := by
  refine h.of_same (fun _ _ => entry_drop_of_place (by decide)) fun name' hsave => ?_
  apply entry_drop_of_name
  rintro rfl
  cases (isTempSave_eq_false hsave).symm.trans hname

theorem Admissible.put_markerTemp {content : Text} (h : s.Admissible)
    (hname : isMarkerTemp name = true) : (s.put .top name (.file content)).Admissible where
  creationRoots name' hroot := by
    rw [entry_put_of_name]
    · exact h.creationRoots name' hroot
    · rintro rfl
      cases (isCreationRoot_of_isMarkerTemp hname).symm.trans hroot
  markerTemps name' htemp := by
    by_cases heq : name' = name
    · subst heq
      rw [entry_put_self]
      exact .inr rfl
    · rw [entry_put_of_name heq]
      exact h.markerTemps name' htemp
  version := by
    rw [entry_put_of_name (ne_of_isMarkerTemp hname).2]
    exact h.version
  world := (SameWorld.put_top (ne_of_isMarkerTemp hname)).world h.world

theorem Admissible.drop_markerTemp (h : s.Admissible) (hname : isMarkerTemp name = true) :
    (s.drop .top name).Admissible where
  creationRoots name' hroot := by
    rw [entry_drop]
    split
    · exact .inl rfl
    · exact h.creationRoots name' hroot
  markerTemps name' htemp := by
    rw [entry_drop]
    split
    · exact .inl rfl
    · exact h.markerTemps name' htemp
  version := by
    rw [entry_drop_of_name (ne_of_isMarkerTemp hname).2]
    exact h.version
  world := (SameWorld.drop_top (ne_of_isMarkerTemp hname)).world h.world

theorem Admissible.put_root {files : Files} (h : s.Admissible) (hname : isCreationRoot name = true) :
    (s.put .top name (.directory files)).Admissible where
  creationRoots name' hroot := by
    by_cases heq : name' = name
    · subst heq
      rw [entry_put_self]
      exact .inr rfl
    · rw [entry_put_of_name heq]
      exact h.creationRoots name' hroot
  markerTemps name' htemp := by
    rw [entry_put_of_name]
    · exact h.markerTemps name' htemp
    · rintro rfl
      cases (isCreationRoot_of_isMarkerTemp htemp).symm.trans hname
  version := by
    rw [entry_put_of_name (ne_of_isCreationRoot hname).2]
    exact h.version
  world := (SameWorld.put_top (ne_of_isCreationRoot hname)).world h.world

theorem Admissible.drop_root (h : s.Admissible) (hname : isCreationRoot name = true) :
    (s.drop .top name).Admissible where
  creationRoots name' hroot := by
    rw [entry_drop]
    split
    · exact .inl rfl
    · exact h.creationRoots name' hroot
  markerTemps name' htemp := by
    rw [entry_drop]
    split
    · exact .inl rfl
    · exact h.markerTemps name' htemp
  version := by
    rw [entry_drop_of_name (ne_of_isCreationRoot hname).2]
    exact h.version
  world := (SameWorld.drop_top (ne_of_isCreationRoot hname)).world h.world

theorem Admissible.leads (h : s.Admissible) (ht : t.Admissible) (hleads : s.Leads t x s') :
    s'.Admissible := by
  obtain ⟨-, rfl⟩ | ⟨-, rfl | rfl⟩ := hleads
  · exact ht
  · exact h.fail
  · exact ht.fail

theorem Admissible.fails {α : Type} {x : Option α} (h : s.Admissible) (hfails : s.Fails x s') :
    s'.Admissible := by
  obtain ⟨-, rfl⟩ := hfails
  exact h.fail

end State

end ClusterState.Factorio
