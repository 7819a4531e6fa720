import ClusterState.Factorio.Dates
import ClusterState.Factorio.Recovery

/-! # Starts on a clock

Starts of any versions follow one another. Each is cut off anywhere, or becomes the
server, and the next one begins after it, and at least a second after it has begun. No
backup has a name that is still to come.
-/

namespace ClusterState.Factorio

open Concurrency State

/-- Times are in nanoseconds. -/
def second (time : ℕ) : ℕ := time / 1000000000

/-- A start that has come as far as `reached`, after another one has ended; the next one to begin
has to wait until `spaced`. -/
structure Attempt (clock : Clock) (s : State) (ended spaced : ℕ) where
  cfg : Sources
  settings : Settings
  begun : ℕ
  dated : ℕ
  finished : ℕ
  reached : Run
  ended_le : ended ≤ begun
  spaced_le : spaced ≤ begun
  begun_le : begun ≤ dated
  dated_le : dated ≤ finished
  isPid : IsPid settings.pid
  runs : RunsAt cfg settings (clock.stamp (second dated)) s.begin reached

/-- A start of the history, with the state that it found and the one in which its script was left. -/
structure Past where
  settings : Settings
  stamp : Text
  before : State
  after : State
  executed : Bool

def Attempt.past {clock : Clock} {s : State} {ended spaced : ℕ} (a : Attempt clock s ended spaced)
    (after : State) (executed : Bool) : Past :=
  ⟨a.settings, clock.stamp (second a.dated), s.begin, after, executed⟩

/-- What has happened so far, the last start first; the history begins where no backup has the
name of a time to come. -/
inductive History (clock : Clock) (s₀ : State) : List Past → State → ℕ → ℕ → Prop
  | begins (first : ℕ) (hcome : ∀ n, second first ≤ n → s₀.Unnamed (clock.stamp n) ∧
      s₀.Unnumbered (clock.stamp n)) : History clock s₀ [] s₀ first first
  | cut {past : List Past} {s : State} {ended spaced : ℕ} (h : History clock s₀ past s ended spaced)
      (a : Attempt clock s ended spaced) (t : State) (hcut : Cut a.cfg a.reached.shared t) :
      History clock s₀ (a.past t false :: past) t a.finished (a.begun + 1000000000)
  | executed {past : List Past} {s : State} {ended spaced : ℕ} (h : History clock s₀ past s ended spaced)
      (a : Attempt clock s ended spaced) (hdone : a.reached.procs ⟨⟩ = .done ()) (t : State)
      (hplays : a.reached.shared.Plays t) :
      History clock s₀ (a.past a.reached.shared true :: past) t a.finished (a.begun + 1000000000)

/-- The version under which the world has last been started, if it has been. -/
def startedUnder (s₀ : State) : List Past → Text
  | [] => if isFile (s₀.entry .saves finalSave) then s₀.lastStarted else []
  | p :: past => if p.executed then p.settings.version else startedUnder s₀ past

/-- A directory that is not a staging directory has a copy of every regular save of `s`, and what
one of the starts has noted of it. -/
def CopiedIn (past : List Past) (s t : State) : Prop :=
  ∃ p ∈ past, ∃ name files, visible name = true ∧
    t.entry .preUpgrade name = some (.directory files) ∧
    files.lookup "backup-metadata.txt".toList =
      some (.file (backupMetadata p.settings p.before.lastStarted p.stamp)) ∧
    ∀ save content, isSave save = true → s.entry .saves save = some (.file content) →
      files.lookup save = some (.file content)

section History

variable {clock : Clock} {cfg : Sources} {s₀ s t : State} {past : List Past} {ended spaced : ℕ}
  {stamp : Text}

/-! ## The names to come -/

theorem unnamed_of_same (h : ∀ name, Same .preUpgrade name s t) (hs : s.Unnamed stamp) :
    t.Unnamed stamp := fun versions => (h _).entry.trans (hs versions)

theorem unnumbered_of_same (h : ∀ name, Same .preUpgrade name s t) (hs : s.Unnumbered stamp) :
    t.Unnumbered stamp := fun versions pid hpid => (h _).entry.trans (hs versions pid hpid)

/-- A plain name may be taken up to the second in which the last start has ended, one with a
process only up to the second before the next one begins. -/
structure State.Unused (clock : Clock) (ended spaced : ℕ) (s : State) : Prop where
  unnamed : ∀ n, second ended < n → s.Unnamed (clock.stamp n)
  unnumbered : ∀ n, second spaced ≤ n → s.Unnumbered (clock.stamp n)

theorem State.Unused.of_same (h : ∀ name, Same .preUpgrade name s t) (hs : s.Unused clock ended spaced) :
    t.Unused clock ended spaced where
  unnamed n hn := unnamed_of_same h (hs.unnamed n hn)
  unnumbered n hn := unnumbered_of_same h (hs.unnumbered n hn)

theorem same_begin (s : State) (name : Name) : Same .preUpgrade name s s.begin := entry_begin

theorem Attempt.spaced_le_dated (a : Attempt clock s ended spaced) : second spaced ≤ second a.dated :=
  Nat.div_le_div_right (a.spaced_le.trans a.begun_le)

theorem Attempt.free (a : Attempt clock s ended spaced) (hs : s.Unused clock ended spaced) :
    exists? (s.begin.entry .preUpgrade
      (s.begin.backupTarget a.settings (clock.stamp (second a.dated)))) = false :=
  (unnumbered_of_same (same_begin s) (hs.unnumbered _ a.spaced_le_dated)).free a.isPid

theorem Attempt.unused (a : Attempt clock s ended spaced) (hs : s.Unused clock ended spaced) :
    a.reached.shared.Unused clock a.finished (a.begun + 1000000000) where
  unnamed n hn := by
    have hdated : second a.dated ≤ second a.finished := Nat.div_le_div_right a.dated_le
    have hended : second ended ≤ second a.finished :=
      Nat.div_le_div_right ((a.ended_le.trans a.begun_le).trans a.dated_le)
    exact a.runs.unnamed a.isPid (a.free hs) (by omega)
      (unnamed_of_same (same_begin s) (hs.unnamed n (by omega)))
  unnumbered n hn := by
    have hbegun : second (a.begun + 1000000000) = second a.begun + 1 :=
      Nat.add_div_right a.begun (by decide)
    have hended : second ended ≤ second a.begun := Nat.div_le_div_right a.ended_le
    have hspaced : second spaced ≤ second a.begun := Nat.div_le_div_right a.spaced_le
    refine a.runs.unnumbered a.isPid (a.free hs) (fun heq => ?_)
      (unnumbered_of_same (same_begin s) (hs.unnumbered n (by omega)))
    -- a date after the second in which the start has begun finds no plain name taken
    exact unnamed_of_same (same_begin s) (hs.unnamed _ (by omega))

theorem Cut.version (h : Cut cfg s t) : Same .top versionMarker s t := by
  cases h with
  | killed => rfl
  | terminated r x t hcleans hperforms =>
    refine same_of_performs hperforms fun htouches => ?_
    cases r with
    | rmTree name => exact (ne_of_isCreationRoot hcleans).2 htouches.2
    | rmForced name => exact (ne_of_isMarkerTemp hcleans).2 htouches.2
    | _ => exact hcleans.elim

theorem History.unused (h : History clock s₀ past s ended spaced) : s.Unused clock ended spaced := by
  induction h with
  | begins first hcome => exact ⟨fun n hn => (hcome n hn.le).1, fun n hn => (hcome n hn).2⟩
  | cut h a t hcut ih => exact (a.unused ih).of_same fun name => hcut.same (by decide) name
  | executed h a hdone t hplays ih => exact (a.unused ih).of_same fun name => hplays.preUpgrade name

end History

end ClusterState.Factorio
