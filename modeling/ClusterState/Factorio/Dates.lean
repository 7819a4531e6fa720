import ClusterState.Factorio.Upgrading

/-! # The names of the backups

A backup is named after a second, and after the process if the name is taken. The names
of two seconds are different, and no name with a process is one without.
-/

namespace ClusterState.Factorio

open Concurrency State

/-- What `date -u +%Y%m%dT%H%M%SZ` prints in every second. -/
structure Clock where
  stamp : ℕ → Text
  injective : Function.Injective stamp
  dashless : ∀ n, '-' ∉ stamp n
  zulu : ∀ n, (stamp n).getLast? = some 'Z'

def datedName (versions stamp : Text) : Name := "from-".toList ++ versions ++ '-' :: stamp

def numberedName (versions stamp pid : Text) : Name := datedName versions stamp ++ '-' :: pid

def IsPid (pid : Text) : Prop := ∀ d ∈ pid, d.isDigit = true

theorem append_dash_inj {x y a b : Text} (ha : '-' ∉ a) (hb : '-' ∉ b)
    (h : x ++ '-' :: a = y ++ '-' :: b) : x = y ∧ a = b := by
  rcases List.append_eq_append_iff.mp h with ⟨c, rfl, hc⟩ | ⟨c, rfl, hc⟩
  · cases c with
    | nil => exact ⟨(List.append_nil _).symm, (List.cons.inj hc).2⟩
    | cons d c =>
      refine absurd ?_ ha
      rw [(List.cons.inj hc).2]
      exact List.mem_append_right _ List.mem_cons_self
  · cases c with
    | nil => exact ⟨List.append_nil _, (List.cons.inj hc).2.symm⟩
    | cons d c =>
      refine absurd ?_ hb
      rw [(List.cons.inj hc).2]
      exact List.mem_append_right _ List.mem_cons_self

theorem IsPid.dashless {pid : Text} (h : IsPid pid) : '-' ∉ pid := by
  intro hdash
  exact absurd (h _ hdash) (by decide)

section Names

variable {clock : Clock} {versions versions' pid pid' : Text} {m n : ℕ}

theorem Clock.stamp_ne_pid (hpid : IsPid pid) : clock.stamp n ≠ pid := by
  rintro rfl
  exact absurd (hpid _ (List.mem_of_getLast? (clock.zulu n))) (by decide)

theorem datedName_inj (h : datedName versions (clock.stamp m) = datedName versions' (clock.stamp n)) :
    m = n :=
  clock.injective (append_dash_inj (clock.dashless m) (clock.dashless n) h).2

theorem datedName_ne_numberedName (hpid : IsPid pid) :
    datedName versions (clock.stamp m) ≠ numberedName versions' (clock.stamp n) pid :=
  fun h => clock.stamp_ne_pid hpid (append_dash_inj (clock.dashless m) hpid.dashless h).2

theorem numberedName_inj (hpid : IsPid pid) (hpid' : IsPid pid')
    (h : numberedName versions (clock.stamp m) pid = numberedName versions' (clock.stamp n) pid') :
    m = n :=
  datedName_inj (append_dash_inj hpid.dashless hpid'.dashless h).1

end Names

namespace State

/-- No backup has the name of the second. -/
def Unnamed (stamp : Text) (s : State) : Prop :=
  ∀ versions, s.entry .preUpgrade (datedName versions stamp) = none

/-- No backup has the name of the second and of a process. -/
def Unnumbered (stamp : Text) (s : State) : Prop :=
  ∀ versions pid, IsPid pid → s.entry .preUpgrade (numberedName versions stamp pid) = none

end State

section Dates

variable {cfg : Sources} {settings : Settings} {clock : Clock} {stamp : Text} {s : State} {c : Run}
  {m n : ℕ}

theorem State.backup_eq : ∃ versions, s.backup settings stamp = datedName versions stamp := by
  have hgroup (a b c d : Text) : a ++ b ++ c ++ d = a ++ (b ++ c ++ d) := by
    simp only [List.append_assoc]
  exact ⟨_, congrArg (· ++ '-' :: stamp) (hgroup _ _ _ _)⟩

theorem State.backupTarget_cases : ∃ versions,
    s.backupTarget settings stamp = datedName versions stamp ∨
      s.backupTarget settings stamp = numberedName versions stamp settings.pid ∧
        s.entry .preUpgrade (datedName versions stamp) ≠ none := by
  obtain ⟨versions, hbackup⟩ := @backup_eq settings stamp s
  refine ⟨versions, ?_⟩
  rw [backupTarget, hbackup]
  split
  · rename_i hexists
    refine .inr ⟨rfl, fun hnone => ?_⟩
    rw [hnone] at hexists
    cases hexists
  · exact .inl rfl

theorem State.Unnumbered.free (h : s.Unnumbered stamp) (hpid : IsPid settings.pid) :
    exists? (s.entry .preUpgrade (s.backupTarget settings stamp)) = false := by
  obtain ⟨versions, hbackup⟩ := @backup_eq settings stamp s
  rw [backupTarget, hbackup]
  split
  · change exists? (s.entry .preUpgrade (numberedName versions stamp settings.pid)) = false
    rw [h versions settings.pid hpid]
    rfl
  · rename_i hfree
    exact Bool.not_eq_true _ ▸ hfree

theorem visible_datedName {versions : Text} : visible (datedName versions stamp) = true := by
  have hhead : (datedName versions stamp).head? = some 'f' := rfl
  rw [visible, hhead]
  rfl

theorem visible_numberedName {versions pid : Text} :
    visible (numberedName versions stamp pid) = true := by
  have hhead : (numberedName versions stamp pid).head? = some 'f' := rfl
  rw [visible, hhead]
  rfl

theorem RunsAt.unnamed (h : RunsAt cfg settings (clock.stamp n) s c) (hpid : IsPid settings.pid)
    (hfree : exists? (s.entry .preUpgrade (s.backupTarget settings (clock.stamp n))) = false)
    (hne : m ≠ n) (hs : s.Unnamed (clock.stamp m)) : c.shared.Unnamed (clock.stamp m) := by
  intro versions
  rcases h.backing hfree (@visible_datedName (clock.stamp m) versions) with hsame | ⟨hname, -⟩
  · exact hsame.entry.trans (hs versions)
  · obtain ⟨versions', htarget | ⟨htarget, -⟩⟩ :=
      @backupTarget_cases settings (clock.stamp n) s
    · exact absurd (datedName_inj (hname.trans htarget)) hne
    · exact absurd (hname.trans htarget) (datedName_ne_numberedName hpid)

theorem RunsAt.unnumbered (h : RunsAt cfg settings (clock.stamp n) s c) (hpid : IsPid settings.pid)
    (hfree : exists? (s.entry .preUpgrade (s.backupTarget settings (clock.stamp n))) = false)
    (hne : m = n → s.Unnamed (clock.stamp n)) (hs : s.Unnumbered (clock.stamp m)) :
    c.shared.Unnumbered (clock.stamp m) := by
  intro versions pid hpid'
  rcases h.backing hfree (@visible_numberedName (clock.stamp m) versions pid) with
    hsame | ⟨hname, -⟩
  · exact hsame.entry.trans (hs versions pid hpid')
  · obtain ⟨versions', htarget | ⟨htarget, htaken⟩⟩ :=
      @backupTarget_cases settings (clock.stamp n) s
    · exact absurd (hname.trans htarget).symm (datedName_ne_numberedName hpid')
    · have heq := numberedName_inj hpid' hpid (hname.trans htarget)
      exact absurd (hne heq versions') htaken

end Dates

end ClusterState.Factorio
