import ClusterState.Factorio.Restarts

/-! # What a command may take away

A command of the script, in any start of a sequence, leaves the world and its autosaves as they
are. The one save that it may remove is the old world, and only where that is all there is.
-/

namespace ClusterState.Factorio

open Concurrency State

/-- In one of a sequence of starts, which may all be cut off, the script gets from `t` to `u` with
one command. -/
inductive Takes (s : State) (settings : Settings) : State → State → Prop
  | command {cfg : Sources} {s' : State} {c : Run} {r : Command} {next : r.Value → Script Unit}
      {x : r.Value} {u : State} (hrestarts : Restarts s s') (hrun : RunsTo cfg settings s'.begin c)
      (hask : c.procs ⟨⟩ = .ask r next) (hperforms : performs cfg r c.shared x u) :
      Takes s settings c.shared u

section Losses

variable {cfg : Sources} {settings : Settings} {s s₀ t u : State} {r : Command} {x : r.Value} {name : Name}
  {e : Entry}

/-- The only guarded command that takes a save away is the removal of the old world. -/
theorem approved_of_loss (hguard : guard settings s₀ r t) (hp : performs cfg r t x u)
    (hname : isSave name = true) (hentry : t.entry .saves name = some e)
    (hloss : u.entry .saves name ≠ some e) :
    name = legacySave ∧ u.entry .saves name = none ∧ t.Approved settings.version := by
  have htouches : r.Touches .saves name := by
    by_contra hnot
    exact hloss ((same_of_performs hp hnot).entry.trans hentry)
  cases r with
  | rm p name' =>
    obtain ⟨rfl, rfl⟩ := htouches
    rcases hguard with ⟨htemp, -⟩ | ⟨hlegacy, -, happroved⟩
    · cases (isTempSave_eq_false hname).symm.trans htemp
    · refine ⟨hlegacy, ?_, happroved⟩
      obtain ⟨-, rfl⟩ | ⟨-, rfl | rfl⟩ := hp
      · exact entry_drop_self
      · exact (hloss (entry_fail.trans hentry)).elim
      · exact entry_fail.trans entry_drop_self
  | mvSave root =>
    obtain ⟨hplace, -⟩ | ⟨-, rfl⟩ := htouches
    · cases hplace
    · cases hguard.2.absent.symm.trans hentry
  | _ => simp [Command.Touches] at htouches

theorem Takes.approved_of_loss (h : Takes s settings t u) (hname : isSave name = true)
    (hentry : t.entry .saves name = some e) (hloss : u.entry .saves name ≠ some e) :
    name = legacySave ∧ u.entry .saves name = none ∧ t.Approved settings.version := by
  obtain ⟨-, hrun, hask, hperforms⟩ := h
  exact Factorio.approved_of_loss (hrun.guard hask) hperforms hname hentry hloss

theorem ne_legacySave_of_isAutosave (h : isAutosave name = true) : name ≠ legacySave := by
  rintro rfl
  cases (show isAutosave legacySave = false by decide).symm.trans h

/-- The script leaves the world and the autosaves that are there alone. Any other save it removes
only if that is the old world, alone and unmarked, of the version that is approved. -/
theorem world_never_lost (h : Takes s settings t u) :
    (∀ name e, name = finalSave ∨ isAutosave name = true → t.entry .saves name = some e →
      u.entry .saves name = some e) ∧
    ∀ name e, isSave name = true → t.entry .saves name = some e → u.entry .saves name ≠ some e →
      name = legacySave ∧ u.entry .saves name = none ∧ t.Approved settings.version := by
  refine ⟨fun name e hname hentry => ?_, fun name e => h.approved_of_loss⟩
  by_contra hloss
  rcases hname with rfl | hauto
  · have hsave := isSave_of_isPrimary isPrimary_finalSave
    exact absurd (h.approved_of_loss hsave hentry hloss).1 (by decide)
  · have hsave := isSave_of_isAutosave hauto
    exact ne_legacySave_of_isAutosave hauto (h.approved_of_loss hsave hentry hloss).1

end Losses

namespace Sample

def legacySettings : Settings := { Sample.settings with version := legacyVersion }

/-- The old world is all there is, but for a temporary save. -/
def legacy : State where
  top := AList.singleton versionMarker (.file "2.0.77\n".toList)
  saves := (AList.singleton legacySave (.file "old".toList)).insert "w.tmp.zip".toList (.file [])
  preUpgrade := ∅
  failed := false

def asksRemoval (m : Script Unit) : Bool :=
  match m with
  | .ask (.rm .saves name) _ => name == legacySave
  | _ => false

theorem eq_ask_of_asksRemoval {m : Script Unit} (h : asksRemoval m = true) :
    ∃ next, m = .ask (.rm .saves legacySave) next := by
  unfold asksRemoval at h
  split at h
  · rename_i name next
    obtain rfl := beq_iff_eq.mp h
    exact ⟨next, rfl⟩
  · cases h

end Sample

/-- The old world goes, in a start after one that was cut off. -/
theorem world_never_lost_legacy : ∃ t u, Takes Sample.legacy Sample.legacySettings t u ∧
    t.entry .saves legacySave = some (.file "old".toList) ∧ u.entry .saves legacySave = none ∧
    t.Approved legacyVersion := by
  have hrun : (startsOf Sample.sources [(Sample.legacySettings, 36)] Sample.legacy).any (fun t =>
      ((responder Sample.sources).execute [.act ⟨⟩ (List.replicate 35 true)]
        ⟨fun _ => script Sample.legacySettings, t.begin⟩).any fun c =>
          Sample.asksRemoval (c.procs ⟨⟩) && hasFile c.shared .saves legacySave "old".toList) = true := by
    decide +kernel
  obtain ⟨s, hstarts, hlast⟩ := (Option.any_eq_true _ _).mp hrun
  obtain ⟨c, hreach, hcheck⟩ := Responder.exists_reaches hlast
  obtain ⟨hasks, hfile⟩ := (Bool.and_eq_true _ _).mp hcheck
  obtain ⟨next, hask⟩ := Sample.eq_ask_of_asksRemoval hasks
  have hentry := entry_of_hasFile hfile
  have htakes : Takes Sample.legacy Sample.legacySettings c.shared (c.shared.drop .saves legacySave) :=
    .command (restarts_of_startsOf hstarts) hreach hask (.inl ⟨rfl, rfl⟩)
  have hloss : (c.shared.drop .saves legacySave).entry .saves legacySave ≠ some (.file "old".toList) := by
    rw [entry_drop_self]
    exact Option.some_ne_none _ ∘ Eq.symm
  obtain ⟨-, hgone, happroved⟩ := (world_never_lost htakes).2 legacySave _ (by decide) hentry hloss
  exact ⟨_, _, htakes, hentry, hgone, happroved⟩

end ClusterState.Factorio
