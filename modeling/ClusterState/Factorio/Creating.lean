import ClusterState.Factorio.Making

/-! # Making the world

The world is made in a directory of its own and moved to its name, which it never
takes from another file. Whatever happens, that directory is cleaned up.
-/

namespace ClusterState.Factorio

open Concurrency State

section Creating

variable {cfg : Sources} {settings : Settings} {s₀ t u : State} {root : Name} {α : Type}

/-- What holds in every state of the run may be used of the next command. -/
theorem ensures_of_inv {Q : α → State → Prop} {r : Command} {next : r.Value → Script α}
    (h : (s₀.Admissible → t.Admissible) → Ensures cfg settings s₀ Q (.ask r next) t) :
    Ensures cfg settings s₀ Q (.ask r next) t := by
  intro v hrely hinv
  obtain rfl := Discipline.eq_of_rely hrely
  exact h hinv v .refl hinv

theorem Ensures.tryCatch {Q : α → State → Prop} {m : Script α} {handle : Exit → Script α}
    (hm : Ensures cfg settings s₀ Q m t)
    (hh : ∀ exit u, (Fine cfg settings s₀ → u.failed = true) →
      Ensures cfg settings s₀ Q (handle exit) u) :
    Ensures cfg settings s₀ Q (tryCatch m handle) t := Discipline.Meets.tryCatch hm hh

structure State.Follows (t u : State) : Prop where
  sameWorld : t.SameWorld u
  failed : t.failed = true → u.failed = true

theorem State.Follows.refl (t : State) : t.Follows t := ⟨.refl t, id⟩

theorem State.Follows.trans {v : State} (h : t.Follows u) (h' : u.Follows v) : t.Follows v :=
  ⟨h.sameWorld.trans h'.sameWorld, fun hfailed => h'.failed (h.failed hfailed)⟩

theorem State.Follows.put_root {e : Entry} (hroot : isCreationRoot root = true) :
    t.Follows (t.put .top root e) :=
  ⟨.put_top (ne_of_isCreationRoot hroot), fun h => failed_put.trans h⟩

theorem State.Follows.drop_root (hroot : isCreationRoot root = true) : t.Follows (t.drop .top root) :=
  ⟨.drop_top (ne_of_isCreationRoot hroot), fun h => failed_drop.trans h⟩

theorem State.Follows.fail (h : t.Follows u) : t.Follows u.fail := ⟨h.sameWorld.fail, fun _ => rfl⟩

theorem State.Follows.leads {v : State} {x : Option Unit} (h : t.Follows u) (hleads : t.Leads u x v) :
    t.Follows v := by
  obtain ⟨-, rfl⟩ | ⟨-, rfl | rfl⟩ := hleads
  · exact h
  · exact (Follows.refl t).fail
  · exact h.fail

theorem ensures_cleanup (hroot : isCreationRoot root = true) :
    Ensures cfg settings s₀ (fun _ u => t.Follows u) (cleanupCreateArtifacts root) t := by
  have hrm : Ensures cfg settings s₀ (fun _ u => t.Follows u) (act (.rmTree root)) t := by
    refine ensures_act hroot fun x u _ hp => ?_
    rcases hp with hleads | ⟨-, -, files, rfl⟩
    · exact (Follows.drop_root hroot).leads hleads
    · exact (Follows.put_root hroot).fail
  exact hrm.bind fun _ _ h => ensures_pure h

theorem ensures_exitAfterCleanup {Q : α → State → Prop} {exit : Exit}
    (hroot : isCreationRoot root = true) (h : Fine cfg settings s₀ → t.failed = true) :
    Ensures cfg settings s₀ Q (exitAfterCleanup root exit) t :=
  (ensures_cleanup hroot).bind fun _ _ hu => ensures_throw fun hfine => hu.failed (h hfine)

theorem ensures_within {m : Script (Option Unit)} (hroot : isCreationRoot root = true)
    (hm : Ensures cfg settings s₀ (fun x u => t.Within .top root x u) m t) :
    Ensures cfg settings s₀ (Tried fun _ u => t.Follows u) m t := by
  refine hm.mono fun x u hp => ?_
  unfold Within at hp
  split at hp
  · obtain ⟨files, ⟨rfl, rfl⟩ | ⟨rfl, rfl⟩⟩ := hp
    · exact .put_root hroot
    · rfl
  · exact tried_of_fails hp

theorem ensures_prepareRoot {sources : List (Text × Text)} (hroot : isCreationRoot root = true) :
    Ensures cfg settings s₀ (fun _ u => t.Follows u) (prepareRoot settings sources root) t := by
  refine (ensures_within hroot
    (ensures_act (r := .mkdirRoot root) hroot fun _ _ _ h => h)).orExit_bind fun _ t₁ h₁ => ?_
  refine (ensures_within hroot
    (ensures_act (r := .cpScenario root _ _) hroot fun _ _ _ h => h)).orExit_bind fun _ t₂ h₂ => ?_
  refine (ensures_within hroot
    (ensures_act (r := .cpScenario root _ _) hroot fun _ _ _ h => h)).orExit_bind fun _ t₃ h₃ => ?_
  refine (ensures_within hroot
    (ensures_act (r := .chmodScenario root) hroot fun _ _ _ h => h)).orExit_bind fun _ t₄ h₄ => ?_
  refine (ensures_within hroot
    (ensures_act (r := .writeConversion root _) hroot fun _ _ _ h => h)).orExit_bind fun _ t₅ h₅ => ?_
  refine (ensures_within hroot
    (ensures_act (r := .chmodConversion root) hroot fun _ _ _ h => h)).bind fun _ t₆ h₆ => ?_
  refine (ensures_orExit h₆).mono fun _ u hu => ?_
  exact ((((h₁.trans h₂).trans h₃).trans h₄).trans h₅).trans hu

theorem State.World.absent (h : t.World) (hunmarked : t.Unmarked) (hprimary : t.NoPrimary) :
    t.entry .saves finalSave = none := by
  have hnot : ¬t.Sole := by
    intro hsole
    cases (hprimary _ isPrimary_finalSave).symm.trans hsole.regular
  cases h with
  | marked hmarked _ => exact absurd hunmarked hmarked.not_unmarked
  | made _ _ hsole => exact absurd hsole hnot
  | fresh _ _ _ habsent => exact habsent
  | legacy _ _ _ _ _ habsent => exact habsent

structure State.Empty (t : State) : Prop where
  unmarked : t.Unmarked
  noAutosaves : t.NoAutosaves
  noPrimary : t.NoPrimary

theorem State.Follows.empty (h : t.Follows u) (ht : t.Empty) : u.Empty :=
  ⟨h.sameWorld.unmarked ht.unmarked, h.sameWorld.noAutosaves ht.noAutosaves,
    h.sameWorld.noPrimary ht.noPrimary⟩

structure State.Makes (t u : State) : Prop where
  marker : u.entry .top worldMarker = t.entry .top worldMarker
  version : u.entry .top versionMarker = t.entry .top versionMarker
  sole : u.Sole

theorem State.Follows.makes {v : State} (h : t.Follows u) (hu : u.Makes v) : t.Makes v :=
  ⟨hu.marker.trans h.sameWorld.marker, hu.version.trans h.sameWorld.version, hu.sole⟩

theorem State.Makes.follows {v : State} (h : t.Makes u) (hu : u.Follows v) : t.Makes v :=
  ⟨hu.sameWorld.marker.trans h.marker, hu.sameWorld.version.trans h.version, hu.sameWorld.sole h.sole⟩

def State.initialSave? (t : State) (root : Name) : Option Leaf :=
  (t.files .top root).bind fun files => files.lookup initialSave

theorem ensures_initialSave :
    Ensures cfg settings s₀ (fun x u => u = t ∧ x = t.initialSave? root) (act (.initialSave root)) t :=
  ensures_act trivial fun _ _ _ h => h

theorem ensures_mvSave (hroot : isCreationRoot root = true) (hempty : t.Empty)
    (habsent : t.entry .saves finalSave = none) {content : Text}
    (hmade : t.initialSave? root = some (.file content)) :
    Ensures cfg settings s₀ (Tried fun _ u => t.Makes u ∧ u.initialSave? root = none)
      (act (.mvSave root)) t := by
  have hguard : guard settings s₀ (.mvSave root) t :=
    ⟨hroot, hempty.unmarked, hempty.noAutosaves, hempty.noPrimary, habsent, content, hmade⟩
  refine ensures_act hguard fun x u _ hp => ?_
  obtain ⟨files, hfiles, hleaf⟩ := Option.bind_eq_some_iff.mp hmade
  simp only [performs, hfiles, hleaf, habsent, if_true] at hp
  obtain ⟨rfl, rfl⟩ | ⟨rfl, rfl | rfl⟩ := hp
  · have hroots := ne_of_isCreationRoot hroot
    refine ⟨⟨?_, ?_, sole_put_final ?_⟩, ?_⟩
    · rw [entry_put_of_place (by decide), entry_put_of_name hroots.1]
    · rw [entry_put_of_place (by decide), entry_put_of_name hroots.2]
    · intro name hname
      rw [entry_put_of_place (by decide)]
      exact hempty.noPrimary name hname
    · have hentry : ((t.put .top root (.directory (files.erase initialSave))).put .saves finalSave
          (Leaf.file content).toEntry).files .top root = some (files.erase initialSave) := by
        rw [State.files_eq_some, entry_put_of_place (by decide), entry_put_self]
      rw [State.initialSave?, hentry, Option.bind_some, AList.lookup_erase]
  · rfl
  · rfl

theorem ensures_publishSave (hroot : isCreationRoot root = true) (hempty : t.Empty)
    (hmade : t.failed = true ∨ ∃ content, t.initialSave? root = some (.file content)) :
    Ensures cfg settings s₀ (fun _ u => t.Makes u) (publishSave settings root) t := by
  refine ensures_initialSave.bind fun x u hx => ?_
  obtain ⟨rfl, rfl⟩ := hx
  split
  · rename_i content hsave
    refine ensures_of_inv fun hinv => ensures_entry.bind fun x v hx => ?_
    obtain ⟨rfl, rfl⟩ := hx
    split
    · rename_i hsome
      refine ensures_exitAfterCleanup hroot fun hfine => ?_
      rw [(hinv hfine.ready.toAdmissible).world.absent hempty.unmarked hempty.noPrimary] at hsome
      cases hsome
    · rename_i hnone
      rw [Bool.not_eq_true, Option.isSome_eq_false_iff, Option.isNone_iff_eq_none] at hnone
      refine (ensures_mvSave hroot hempty hnone hsave).bind fun x w hx => ?_
      cases x with
      | none => exact ensures_exitAfterCleanup hroot fun _ => hx
      | some _ =>
        obtain ⟨hmakes, hgone⟩ := hx
        refine ensures_initialSave.bind fun x w' hx => ?_
        obtain ⟨rfl, rfl⟩ := hx
        rw [hgone]
        exact (ensures_cleanup hroot).mono fun _ _ h => hmakes.follows h
  · rename_i hother
    refine ensures_exitAfterCleanup hroot fun _ => hmade.resolve_right ?_
    rintro ⟨content, hsave⟩
    exact hother content hsave

theorem ensures_scenario2map (hroot : isCreationRoot root = true) :
    Ensures cfg settings s₀ (fun x u => t.Follows u ∧ (u.failed = true ∨
      x = .exited 0 ∧ ∃ content, u.initialSave? root = some (.file content)))
      (act (.scenario2map root)) t := by
  refine ensures_act hroot fun x u _ hp => ?_
  simp only [performs] at hp
  split at hp
  · obtain ⟨files, ⟨rfl, rfl, content, hsave⟩ | rfl⟩ := hp
    · refine ⟨.put_root hroot, .inr ⟨rfl, content, ?_⟩⟩
      rw [State.initialSave?, State.files_eq_some.mpr entry_put_self]
      exact hsave
    · exact ⟨(Follows.put_root hroot).fail, .inl rfl⟩
  · subst hp
    exact ⟨(Follows.refl t).fail, .inl rfl⟩

theorem ensures_createIn {sources : List (Text × Text)} (hroot : isCreationRoot root = true)
    (hempty : t.Empty) :
    Ensures cfg settings s₀ (fun _ u => t.Makes u) (createIn settings sources root) t := by
  refine (ensures_prepareRoot hroot).bind fun _ u hu => ?_
  refine (ensures_scenario2map hroot).bind fun x v hx => ?_
  obtain ⟨hv, hmade⟩ := hx
  have hfollows := hu.trans hv
  split
  · refine ensures_exitAfterCleanup hroot fun _ => hmade.resolve_right fun h => ?_
    cases h.1
  · refine (ensures_publishSave hroot (hfollows.empty hempty) ?_).mono fun _ _ h => hfollows.makes h
    exact hmade.imp_right And.right
  · rename_i status hne
    refine ensures_exitAfterCleanup hroot fun _ => hmade.resolve_right fun h => ?_
    cases h.1
    exact hne rfl

theorem ensures_create {sources : List (Text × Text)} (hempty : t.Empty) :
    Ensures cfg settings s₀ (fun _ u => t.Makes u) (create settings sources) t := by
  refine ensures_of_inv fun hinv => ensures_entry.bind fun x u hx => ?_
  obtain ⟨rfl, rfl⟩ := hx
  split
  · rename_i hsome
    refine ensures_refuse fun hfine => ?_
    rw [(hinv hfine.ready.toAdmissible).world.absent hempty.unmarked hempty.noPrimary] at hsome
    cases hsome
  · have hlines : Ensures cfg settings s₀ (fun x v => v = u ∧ x = cfg.configLines) (act .mapfile) u :=
      ensures_act trivial fun _ _ _ h => h
    refine hlines.bind fun x v hx => ?_
    obtain ⟨rfl, rfl⟩ := hx
    cases hconfig : cfg.configLines with
    | none =>
      refine ensures_throw fun hfine => ?_
      cases hconfig.symm.trans hfine.sources.configLines
    | some lines =>
      change Ensures cfg settings s₀ _ (if lines = expectedConfigLines then _ else _) v
      split
      · have hmktemp : Ensures cfg settings s₀
            (Tried fun root w => isCreationRoot root = true ∧ v.Follows w) (act .mktempRoot) v := by
          refine ensures_act trivial fun x w _ hp => ?_
          rcases hp with hfails | ⟨random, -, ⟨rfl, rfl⟩ | ⟨rfl, rfl⟩⟩
          · exact tried_of_fails hfails
          · exact ⟨isCreationRoot_append random, .put_root (isCreationRoot_append random)⟩
          · rfl
        refine hmktemp.orExit_bind fun root w hw => ?_
        obtain ⟨hroot, hw⟩ := hw
        refine Ensures.mono (Ensures.tryCatch (ensures_createIn hroot (hw.empty hempty))
          fun exit y hfailed => ensures_exitAfterCleanup hroot hfailed) fun _ _ h => hw.makes h
      · rename_i hlines
        refine ensures_refuse fun hfine => absurd ?_ hlines
        exact Option.some.inj (hconfig.symm.trans hfine.sources.configLines)

end Creating

end ClusterState.Factorio
