import ClusterState.Factorio.Restarts

/-! # States to start in

Files are where the script looks for files, and the world is one that a start of the
version can go on with. What the script can have left is such a state.
-/

namespace ClusterState.Factorio

open Concurrency

namespace State

/-- There are files where the script looks for files, and directories where it makes them. -/
structure Regular (s : State) : Prop where
  markers : ∀ m : Marker, s.entry .top m.name = none ∨ isFile (s.entry .top m.name) = true
  markerTemps : ∀ name, isMarkerTemp name = true → s.entry .top name = none ∨
    isFile (s.entry .top name) = true
  creationRoots : ∀ name, isCreationRoot name = true → s.entry .top name = none ∨
    isDirectory (s.entry .top name) = true
  zips : ∀ name, isZip name = true → s.entry .saves name = none ∨ isFile (s.entry .saves name) = true

/-- What a start of the version can make a world of. -/
inductive Offers (s : State) (version : Text) : Prop
  | nothing (hunmarked : s.Unmarked) (hsaves : ∀ name, isSave name = true → s.entry .saves name = none)
  | legacy (hunmarked : s.Unmarked) (hlegacy : isFile (s.entry .saves legacySave) = true)
      (honly : ∀ name, isSave name = true → name ≠ legacySave → s.entry .saves name = none)
      (hstarted : s.lastStarted = legacyVersion) (hversion : version = legacyVersion)
  | world (hsole : s.Sole)
      (hmarked : s.Marked ∨ s.Unmarked ∧ ∀ name, isAutosave name = true → s.entry .saves name = none)

structure Recoverable (s : State) (version : Text) : Prop extends Regular s where
  offers : s.Offers version

section Recoverable

variable {s t : State} {version : Text} {name : Name}

theorem isFile_eq_false (h : s.entry .saves name = none) : isFile (s.entry .saves name) = false := by
  rw [h]
  rfl

theorem Offers.world_of (h : s.Offers version) : s.World := by
  cases h with
  | nothing hunmarked hsaves =>
    exact .fresh hunmarked (fun name hname => isFile_eq_false (hsaves name (isSave_of_isAutosave hname)))
      (fun name hname => isFile_eq_false (hsaves name (isSave_of_isPrimary hname)))
      (hsaves _ (isSave_of_isPrimary isPrimary_finalSave))
  | legacy hunmarked hlegacy honly hstarted hversion =>
    refine .legacy hunmarked (fun name hname => ?_) (fun name hname hfile => ?_) hlegacy hstarted
      (honly _ (isSave_of_isPrimary isPrimary_finalSave) (by decide))
    · refine isFile_eq_false (honly name (isSave_of_isAutosave hname) ?_)
      rintro rfl
      exact absurd hname (by decide)
    · by_contra hne
      cases (isFile_eq_false (honly name (isSave_of_isPrimary hname) hne)).symm.trans hfile
  | world hsole hmarked =>
    rcases hmarked with hmarked | ⟨hunmarked, hautosaves⟩
    · exact .marked hmarked hsole
    · exact .made hunmarked (fun name hname => isFile_eq_false (hautosaves name hname)) hsole

theorem Offers.legacy_version (h : s.Offers version) (hfile : isFile (s.entry .saves legacySave) = true) :
    version = legacyVersion := by
  cases h with
  | nothing _ hsaves =>
    have hnone := hsaves _ (isSave_of_isPrimary isPrimary_legacySave)
    cases (isFile_eq_false hnone).symm.trans hfile
  | legacy _ _ _ _ hversion => exact hversion
  | world hsole _ => exact absurd (hsole.only _ isPrimary_legacySave hfile) (by decide)

theorem Recoverable.ready (h : s.Recoverable version) : s.Ready version where
  creationRoots := h.creationRoots
  markerTemps := h.markerTemps
  version := h.markers .version
  world := h.offers.world_of
  legacy := h.offers.legacy_version

/-- The start-up tells the states apart by their files alone. -/
theorem Ready.recoverable (h : s.Ready version)
    (hzips : ∀ name, isZip name = true → s.entry .saves name = none ∨
      isFile (s.entry .saves name) = true) : s.Recoverable version where
  markers m := by
    cases m with
    | version => exact h.version
    | world =>
      cases h.world with
      | marked hmarked _ =>
        obtain ⟨content, hentry, -⟩ := hmarked
        exact .inr (isFile_iff.mpr ⟨content, hentry⟩)
      | made hunmarked _ _ => exact .inl hunmarked
      | fresh hunmarked _ _ _ => exact .inl hunmarked
      | legacy hunmarked _ _ _ _ _ => exact .inl hunmarked
  markerTemps := h.markerTemps
  creationRoots := h.creationRoots
  zips := hzips
  offers := by
    have hnone : ∀ name, isSave name = true → isFile (s.entry .saves name) = false →
        s.entry .saves name = none := by
      intro name hname hfile
      rw [isSave, Bool.and_eq_true] at hname
      refine (hzips name hname.1).resolve_right fun h => ?_
      cases hfile.symm.trans h
    have hauto : s.NoAutosaves → ∀ name, isAutosave name = true → s.entry .saves name = none :=
      fun h name hname => hnone name (isSave_of_isAutosave hname) (h name hname)
    have hsaves : ∀ name, isSave name = true → isAutosave name = true ∨ isPrimary name = true := by
      intro name hname
      rw [isPrimary, hname, Bool.true_and, Bool.not_eq_true']
      exact Bool.eq_false_or_eq_true _
    cases h.world with
    | marked hmarked hsole => exact .world hsole (.inl hmarked)
    | made hunmarked hautosaves hsole => exact .world hsole (.inr ⟨hunmarked, hauto hautosaves⟩)
    | fresh hunmarked hautosaves hprimary _ =>
      refine .nothing hunmarked fun name hname => ?_
      rcases hsaves name hname with hname | hprimary'
      · exact hauto hautosaves name hname
      · exact hnone name hname (hprimary name hprimary')
    | legacy hunmarked hautosaves honly hlegacy hversion _ =>
      refine .legacy hunmarked hlegacy (fun name hname hne => ?_) hversion (h.legacy hlegacy)
      rcases hsaves name hname with hname | hprimary
      · exact hauto hautosaves name hname
      · refine hnone name hname ?_
        rw [← Bool.not_eq_true]
        exact fun hfile => hne (honly name hprimary hfile)

end Recoverable

end State

end ClusterState.Factorio
