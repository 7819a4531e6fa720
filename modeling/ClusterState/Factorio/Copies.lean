import ClusterState.Factorio.Histories

/-! # A backup before every upgrade

What one start has copied stays where it is in every later start. The version under which
the world has last been started is in its marker until there is such a copy.
-/

namespace ClusterState.Factorio

open Concurrency State

section Copies

variable {clock : Clock} {s₀ s t : State} {past past' : List Past} {p : Past} {ended spaced : ℕ}
  {name : Name}

theorem Attempt.backing (a : Attempt clock s ended spaced) (hs : s.Unused clock ended spaced)
    (hname : visible name = true) : s.begin.Backing a.settings (clock.stamp (second a.dated)) name
      a.reached.shared := a.runs.backing (a.free hs) hname

theorem Attempt.directory {files : Files} (a : Attempt clock s ended spaced)
    (hs : s.Unused clock ended spaced) (hname : visible name = true)
    (hentry : s.entry .preUpgrade name = some (.directory files)) :
    a.reached.shared.entry .preUpgrade name = some (.directory files) := by
  rcases a.backing hs hname with hsame | ⟨rfl, -⟩
  · exact hsame.entry.trans hentry
  · have hfree := a.free hs
    rw [entry_begin, hentry] at hfree
    cases hfree

theorem CopiedIn.of {s' t' : State} (h : CopiedIn past s t) (hpast : past ⊆ past')
    (hsaves : s.SameSaves s') (hdirectory : ∀ name files, visible name = true →
      t.entry .preUpgrade name = some (.directory files) →
      t'.entry .preUpgrade name = some (.directory files)) : CopiedIn past' s' t' := by
  obtain ⟨p, hp, name, files, hname, hentry, hmetadata, hcopies⟩ := h
  refine ⟨p, hpast hp, name, files, hname, hdirectory name files hname hentry, hmetadata, ?_⟩
  intro save content hsave hcontent
  exact hcopies save content hsave ((hsaves save hsave).symm.trans hcontent)

theorem copiedIn_of_hasBackup (h : p.before.HasBackup p.settings p.stamp name t)
    (hname : visible name = true) : CopiedIn (p :: past) p.before t := by
  obtain ⟨files, hentry, hcomplete⟩ := h
  exact ⟨p, List.mem_cons_self, name, files, hname, hentry, hcomplete.metadata, hcomplete.saves⟩

/-- A start that changes the version of a world has made its backup. -/
theorem Attempt.hasBackup (a : Attempt clock s ended spaced) (hs : s.Unused clock ended spaced)
    (hstarted : s.begin.lastStarted ≠ []) (hfinal : s.begin.entry .saves finalSave ≠ none)
    (hchanged : a.reached.shared.lastStarted ≠ s.begin.lastStarted) :
    s.begin.HasBackup a.settings (clock.stamp (second a.dated))
      (s.begin.backupTarget a.settings (clock.stamp (second a.dated))) a.reached.shared := by
  have hrun := a.runs.runsTo
  have hnot : ¬Same .top versionMarker s.begin a.reached.shared :=
    fun hsame => hchanged (lastStarted_of_same hsame)
  have hfile := (hrun.final_cases.resolve_left hnot).resolve_left hfinal
  have hversion := hrun.lastStarted_cases.resolve_left hchanged
  have hother : s.begin.lastStarted ≠ a.settings.version := fun heq => hchanged (hversion.trans heq.symm)
  exact (a.runs.backedUp (a.free hs) ⟨hfile, hstarted, hother⟩).resolve_left hnot

/-- What is known of the version under which the world has last been started: the marker still
has it, or there is a copy of the saves as they are. -/
structure Traced (s₀ : State) (past : List Past) (s : State) : Prop where
  final : isFile (s.entry .saves finalSave) = true
  copied : s.lastStarted = startedUnder s₀ past ∨ CopiedIn past s s

theorem Traced.begin (h : Traced s₀ past s) : isFile (s.begin.entry .saves finalSave) = true := by
  rw [entry_begin]
  exact h.final

theorem Attempt.copied (a : Attempt clock s ended spaced) (after : State) (executed : Bool)
    (hs : s.Unused clock ended spaced) (h : Traced s₀ past s) (hstarted : startedUnder s₀ past ≠ []) :
    a.reached.shared.lastStarted = startedUnder s₀ past ∨
      CopiedIn (a.past after executed :: past) s.begin a.reached.shared := by
  have hbegin : s.begin.lastStarted = s.lastStarted := lastStarted_of_same entry_begin
  rcases h.copied with hlast | hcopied
  · by_cases hchanged : a.reached.shared.lastStarted = s.begin.lastStarted
    · exact .inl (hchanged.trans (hbegin.trans hlast))
    · have hfinal : s.begin.entry .saves finalSave ≠ none := by
        intro hnone
        have hfile := h.begin
        rw [hnone] at hfile
        cases hfile
      have hbackup := a.hasBackup hs (by rwa [hbegin, hlast]) hfinal hchanged
      exact .inr (copiedIn_of_hasBackup (p := a.past after executed) hbackup visible_backupTarget)
  · refine .inr (hcopied.of (List.subset_cons_self _ _) (fun _ _ => entry_begin) ?_)
    exact fun name files hname hentry => a.directory hs hname hentry

theorem Attempt.started (a : Attempt clock s ended spaced) (hdone : a.reached.procs ⟨⟩ = .done ()) :
    a.reached.shared.Started a.settings.version := by
  have hmeets := a.runs.runsTo.meets.2
  rw [hdone] at hmeets
  exact hmeets

end Copies

/-! ## Three starts -/

namespace Sample

/-- What is printed in two seconds of one day; other seconds are only told apart. -/
def stamp (n : ℕ) : Text :=
  if n = 1767225600 then "20260101T000000Z".toList
  else if n = 1767225601 then "20260101T000001Z".toList
  else List.replicate n 'T' ++ ['Z']

theorem stamp_cases (n : ℕ) : n = 1767225600 ∧ stamp n = "20260101T000000Z".toList ∨
    n = 1767225601 ∧ stamp n = "20260101T000001Z".toList ∨ stamp n = List.replicate n 'T' ++ ['Z'] := by
  rw [stamp]
  split
  · exact .inl ⟨‹_›, rfl⟩
  · split
    · exact .inr (.inl ⟨‹_›, rfl⟩)
    · exact .inr (.inr rfl)

theorem replicate_ne (n : ℕ) {text : Text} (h : '2' ∈ text) : List.replicate n 'T' ++ ['Z'] ≠ text := by
  rintro rfl
  simp at h

def clock : Clock where
  stamp := stamp
  injective m n h := by
    rcases stamp_cases m with ⟨rfl, hm⟩ | ⟨rfl, hm⟩ | hm <;>
      rcases stamp_cases n with ⟨rfl, hn⟩ | ⟨rfl, hn⟩ | hn <;>
      have h := hm.symm.trans (h.trans hn)
    · rfl
    · exact absurd h (by decide)
    · exact absurd h.symm (replicate_ne n (by decide))
    · exact absurd h (by decide)
    · rfl
    · exact absurd h.symm (replicate_ne n (by decide))
    · exact absurd h (replicate_ne m (by decide))
    · exact absurd h (replicate_ne m (by decide))
    · have hlength := congrArg List.length h
      rwa [List.length_append, List.length_append, List.length_replicate, List.length_replicate,
        Nat.add_right_cancel_iff] at hlength
  dashless n := by
    rcases stamp_cases n with ⟨-, hn⟩ | ⟨-, hn⟩ | hn <;> rw [hn]
    · decide
    · decide
    · simp
  zulu n := by
    rcases stamp_cases n with ⟨-, hn⟩ | ⟨-, hn⟩ | hn <;> rw [hn]
    · decide
    · decide
    · exact List.getLast?_concat

def later : Name := earlier ++ "-8".toList

section Starts

variable {s : State} {c : Run}

def attempt {ended spaced : ℕ} (pid : String) (begun dated finished : ℕ)
    (hpid : pid.toList.all Char.isDigit = true)
    (htimes : (ended ≤ begun ∧ spaced ≤ begun) ∧ begun ≤ dated ∧ dated ≤ finished)
    (h : RunsAt sources (settingsOf pid) (clock.stamp (second dated)) s.begin c) :
    Attempt clock s ended spaced where
  cfg := sources
  settings := settingsOf pid
  begun := begun
  dated := dated
  finished := finished
  reached := c
  ended_le := htimes.1.1
  spaced_le := htimes.1.2
  begun_le := htimes.2.1
  dated_le := htimes.2.2
  isPid := List.all_eq_true.mp hpid
  runs := h

theorem begins : History clock started [] started 1767225599000000000 1767225599000000000 :=
  .begins _ fun _ _ => ⟨fun _ => rfl, fun _ _ _ => rfl⟩

end Starts

end Sample

end ClusterState.Factorio
