import ClusterState.Factorio.BackingUp

/-! # What a run does to the backups

Below the backups, a run changes nothing but its own: a directory that is hidden while
it is filled, and complete when it is not hidden any more.
-/

namespace ClusterState.Factorio

open Concurrency State

section Upgrading

variable {cfg : Sources} {settings : Settings} {stamp stamp' : Text} {s t u v : State} {c : Run}
  {r : Command} {x : r.Value} {name : Name}

theorem RunsAt.runsTo (h : RunsAt cfg settings stamp s c) : RunsTo cfg settings s c := by
  refine Relation.ReflTransGen.mono (fun c c' hstep => ?_) _ _ h
  cases hstep with
  | act i r next x s' hask hperforms => exact .act c i r next x s' hask hperforms.1
  | env s' henv => exact henv.elim

theorem RunsAt.meets (h : RunsAt cfg settings stamp s c)
    (hfree : exists? (s.entry .preUpgrade (s.backupTarget settings stamp)) = false) :
    (s.Admissible → c.shared.Admissible) ∧ EnsuresAt cfg settings stamp s
      (fun _ u => u.Started settings.version) (c.procs ⟨⟩) c.shared :=
  (ensuresAt_script hfree).reaches (D := disciplineAt cfg settings stamp s)
    (fun _ => Discipline.stable_alone) (fun _ => Discipline.stable_alone) id h

theorem RunsAt.guardAt (h : RunsAt cfg settings stamp s c)
    (hfree : exists? (s.entry .preUpgrade (s.backupTarget settings stamp)) = false)
    {next : r.Value → Script Unit} (hask : c.procs ⟨⟩ = .ask r next) :
    guardAt settings stamp s r c.shared := by
  obtain ⟨hinv, hmeets⟩ := h.meets hfree
  rw [hask] at hmeets
  exact (hmeets c.shared .refl hinv).1.2

theorem RunsAt.preserves {P : State → Prop}
    (hP : ∀ r u x v, guard settings s r u → Factorio.guardAt settings stamp s r u →
      performs cfg r u x v → P u → P v)
    (h : RunsAt cfg settings stamp s c)
    (hfree : exists? (s.entry .preUpgrade (s.backupTarget settings stamp)) = false) (hs : P s) :
    P c.shared := by
  induction h with
  | refl => exact hs
  | tail hreach hstep ih =>
    cases hstep with
    | act i r next x s' hask hperforms =>
      have hruns : RunsAt cfg settings stamp s _ := hreach
      exact hP r _ x s' (hruns.runsTo.guard hask) (hruns.guardAt hfree hask) hperforms.1 ih
    | env s' henv => exact henv.elim

/-! ## The backups -/

/-- The run has left the name alone, or it is the name of its backup, which is complete. -/
def State.Backing (settings : Settings) (stamp : Text) (s : State) (name : Name) (t : State) : Prop :=
  Same .preUpgrade name s t ∨
    name = s.backupTarget settings stamp ∧ s.HasBackup settings stamp name t

theorem State.Backing.of_same (h : s.Backing settings stamp name u)
    (hsame : Same .preUpgrade name u v) : s.Backing settings stamp name v := by
  rcases h with h | ⟨hname, h⟩
  · exact .inl (h.trans hsame)
  · exact .inr ⟨hname, h.of_same hsame⟩

theorem State.Backing.step
    (hfree : exists? (s.entry .preUpgrade (s.backupTarget settings stamp)) = false)
    (hname : visible name = true) (h : s.Backing settings stamp name u) (hguard : guard settings s r u)
    (hguardAt : Factorio.guardAt settings stamp s r u) (hp : performs cfg r u x v) :
    s.Backing settings stamp name v := by
  by_cases htouches : r.Touches .preUpgrade name
  · have hhidden {staging : Name} (hhidden : visible staging = false) : name ≠ staging := by
      rintro rfl
      cases hname.symm.trans hhidden
    cases r with
    | rm p name' =>
      obtain ⟨rfl, -⟩ := htouches
      exact hguard.elim
    | mkdirStaging staging => exact absurd htouches.2 (hhidden hguardAt)
    | cpSave save staging => exact absurd htouches.2 (hhidden hguardAt)
    | writeMetadata staging text => exact absurd htouches.2 (hhidden hguardAt)
    | mvBackup staging target =>
      obtain ⟨hstaging, rfl, hsame, hhas⟩ := hguardAt
      obtain ⟨-, hname' | rfl⟩ := htouches
      · exact absurd hname' (hhidden hstaging)
      · rw [← hsame] at hfree
        rcases hhas.moves hfree hp with hbackup | ⟨-, hsame'⟩
        · exact .inr ⟨rfl, hbackup⟩
        · exact .inl (Same.trans hsame hsame')
    | _ => simp [Command.Touches] at htouches
  · exact h.of_same (same_of_performs hp htouches)

theorem RunsAt.backing (h : RunsAt cfg settings stamp s c)
    (hfree : exists? (s.entry .preUpgrade (s.backupTarget settings stamp)) = false)
    (hname : visible name = true) : s.Backing settings stamp name c.shared :=
  h.preserves (P := fun u => s.Backing settings stamp name u)
    (fun _ _ _ _ hguard hguardAt hp hu => hu.step hfree hname hguard hguardAt hp) hfree (.inl rfl)

theorem RunsAt.backedUp (h : RunsAt cfg settings stamp s c)
    (hfree : exists? (s.entry .preUpgrade (s.backupTarget settings stamp)) = false)
    (hupgrades : s.Upgrades settings.version) : Same .top versionMarker s c.shared ∨
      s.HasBackup settings stamp (s.backupTarget settings stamp) c.shared := by
  refine h.preserves (P := fun u => Same .top versionMarker s u ∨
    s.HasBackup settings stamp (s.backupTarget settings stamp) u)
    (fun r u x v hguard hguardAt hp hu => ?_) hfree (.inl rfl)
  by_cases htouches : ∃ name, r.Touches .preUpgrade name
  · obtain ⟨name, htouches⟩ := htouches
    obtain ⟨hsame, hnot⟩ := htouches.preUpgrade hguard
    exact .inl (hsame.trans (same_of_performs hp (hnot _)))
  · have hkeep (name : Name) : Same .preUpgrade name u v :=
      same_of_performs hp fun h => htouches ⟨name, h⟩
    by_cases hversion : r.Touches .top versionMarker
    · obtain ⟨temp, rfl⟩ := hversion.marker (m := .version) hguard
      exact .inr ((hguardAt hupgrades).of_same (hkeep _))
    · rcases hu with hsame | hbackup
      · exact .inl (hsame.trans (same_of_performs hp hversion))
      · exact .inr (hbackup.of_same (hkeep _))

/-! ## The saves and the version -/

theorem lastStarted_of_same (h : Same .top versionMarker u v) : v.lastStarted = u.lastStarted := by
  rw [State.lastStarted, State.lastStarted, h.entry]

theorem lastStarted_of_mvVersionMarker {temp : Name} {text : Text} {x : Option Unit}
    (hreads : u.Reads temp text) (hp : performs cfg (.mvVersionMarker temp) u x v) :
    v.lastStarted = u.lastStarted ∨ v.lastStarted = text := by
  obtain ⟨content, hentry, htext⟩ := hreads
  have hput : ((u.drop .top temp).put .top versionMarker (.file content)).lastStarted = text := by
    rw [State.lastStarted, entry_put_self]
    exact htext
  simp only [performs, hentry] at hp
  split at hp
  · exact .inl (lastStarted_of_same (Same.fails hp))
  · obtain ⟨-, rfl⟩ | ⟨-, rfl | rfl⟩ := hp
    · exact .inr hput
    · exact .inl (lastStarted_of_same entry_fail)
    · exact .inr ((lastStarted_of_same entry_fail).trans hput)

theorem RunsTo.lastStarted_cases (h : RunsTo cfg settings s c) :
    c.shared.lastStarted = s.lastStarted ∨ c.shared.lastStarted = settings.version := by
  refine h.preserves (P := fun u => u.lastStarted = s.lastStarted ∨ u.lastStarted = settings.version)
    (fun r u x v hguard hp hu => ?_) (.inl rfl)
  by_cases htouches : r.Touches .top versionMarker
  · obtain ⟨temp, rfl⟩ := htouches.marker (m := .version) hguard
    rcases lastStarted_of_mvVersionMarker hguard.2.1 hp with hsame | hversion
    · rwa [hsame]
    · exact .inr hversion
  · rwa [lastStarted_of_same (same_of_performs hp htouches)]

/-- The version marker is written over a regular world. -/
theorem RunsTo.final_cases (h : RunsTo cfg settings s c) : Same .top versionMarker s c.shared ∨
    s.entry .saves finalSave = none ∨ isFile (s.entry .saves finalSave) = true := by
  refine (h.preserves (P := fun u => s.Fate settings.version u finalSave ∧
    (Same .top versionMarker s u ∨ s.entry .saves finalSave = none ∨
      isFile (s.entry .saves finalSave) = true)) (fun r u x v hguard hp hu => ?_)
    ⟨.same rfl, .inl rfl⟩).2
  obtain ⟨hfate, hu⟩ := hu
  refine ⟨hfate.step hguard hp, ?_⟩
  by_cases htouches : r.Touches .top versionMarker
  · obtain ⟨temp, rfl⟩ := htouches.marker (m := .version) hguard
    obtain ⟨-, -, -, hsole, -⟩ := hguard
    refine .inr ?_
    cases hfate with
    | same hsame =>
      rw [← hsame.entry]
      exact .inr hsole.regular
    | removed hname _ _ => exact absurd hname (by decide)
    | replaced hname _ _ => exact absurd hname (by decide)
    | made _ habsent _ => exact .inl habsent
  · rcases hu with hsame | hfinal
    · exact .inl (hsame.trans (same_of_performs hp htouches))
    · exact .inr hfinal

def State.SameSaves (s t : State) : Prop :=
  ∀ save, isSave save = true → t.entry .saves save = s.entry .saves save

theorem State.SameSaves.final (h : s.SameSaves t) (hfile : isFile (s.entry .saves finalSave) = true) :
    isFile (t.entry .saves finalSave) = true := by
  rw [h _ (isSave_of_isPrimary isPrimary_finalSave)]
  exact hfile

end Upgrading

end ClusterState.Factorio
