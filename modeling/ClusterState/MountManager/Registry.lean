import ClusterState.MountManager.State

/-! # Processes and their entries

A process only ever moves forward. When workers are only started for a volume
and a target that are clear, the processes that are not finished differ in both,
the entry of a volume names the only one of that volume, and a registered worker
that runs and was not asked to stop has its entry.
-/

namespace ClusterState.MountManager

open Concurrency

structure Process.Step (w w' : Process) : Prop where
  volumeID : w'.volumeID = w.volumeID
  target : w'.target = w.target
  stage : w.stage.rank ≤ w'.stage.rank
  stopAsked : w.stopAsked = true → w'.stopAsked = true
  registered : w.registered = true → w'.registered = true

theorem Process.Step.refl (w : Process) : w.Step w := ⟨rfl, rfl, le_rfl, id, id⟩

theorem Stage.eq_running_of_rank {a : Stage} (h : a.rank ≤ Stage.running.rank) : a = .running := by
  cases a <;> simp_all [Stage.rank]

theorem Stage.eq_finished_of_rank {a : Stage} (h : Stage.finished.rank ≤ a.rank) : a = .finished := by
  cases a <;> simp_all [Stage.rank]

theorem Process.Step.running {w w' : Process} (h : w.Step w') (hrun : w'.stage = .running) :
    w.stage = .running := by
  apply Stage.eq_running_of_rank
  rw [← hrun]
  exact h.stage

theorem Process.Step.finished {w w' : Process} (h : w.Step w') (hfin : w.stage = .finished) :
    w'.stage = .finished := by
  apply Stage.eq_finished_of_rank
  rw [← hfin]
  exact h.stage

namespace State

def Has (s : State) (p : ProcessId) (K : Process → Prop) : Prop :=
  ∃ w, s.processes[p]? = some w ∧ K w

def Forward (s s' : State) : Prop :=
  ∀ (p : ProcessId) (w : Process), s.processes[p]? = some w → ∃ w', s'.processes[p]? = some w' ∧ w.Step w'

def Sole (s : State) (volumeID : String) (p : ProcessId) : Prop :=
  ∀ (q : ProcessId) (w : Process), s.processes[q]? = some w → w.volumeID = volumeID → q ≠ p → w.stage = .finished

/-- Nothing is left of an earlier worker of the volume or on the target. -/
def Clear (s : State) (cmd : Command) : Prop :=
  s.mountOf cmd.volumeID = none ∧
    ∀ w ∈ s.processes, w.volumeID = cmd.volumeID ∨ w.target = cmd.target → w.stage = .finished

instance (s : State) (cmd : Command) : Decidable (s.Clear cmd) :=
  inferInstanceAs (Decidable (_ ∧ _))

structure Registry (s : State) : Prop where
  distinct : ∀ (p q : ProcessId) (w w' : Process), s.processes[p]? = some w →
    s.processes[q]? = some w' → p ≠ q → w.stage ≠ .finished → w'.stage ≠ .finished →
    w.volumeID ≠ w'.volumeID ∧ w.target ≠ w'.target
  sole : ∀ v e, s.mountOf v = some e → s.Sole v e.process
  kept : ∀ (p : ProcessId) (w : Process), s.processes[p]? = some w → w.registered = true → w.stage = .running →
    w.stopAsked = false → ∃ e, s.mountOf w.volumeID = some e ∧ e.process = p

variable {s s' : State} {p q : ProcessId} {v : String} {K : Process → Prop}

theorem Has.mono {K' : Process → Prop} (h : s.Has p K) (hK : ∀ w, K w → K' w) : s.Has p K' := by
  obtain ⟨w, hw, hKw⟩ := h
  exact ⟨w, hw, hK w hKw⟩

theorem Has.forward (h : s.Has p K) (hs : s.Forward s')
    (hK : ∀ w w', w.Step w' → K w → K w') : s'.Has p K := by
  obtain ⟨w, hw, hKw⟩ := h
  obtain ⟨w', hw', hstep⟩ := hs p w hw
  exact ⟨w', hw', hK w w' hstep hKw⟩

theorem forward_of_processes (h : s'.processes = s.processes) : s.Forward s' := by
  intro p w hw
  refine ⟨w, ?_, .refl w⟩
  rw [h]
  exact hw

theorem getElem?_modifyProcess (f : Process → Process) :
    (s.modifyProcess p f).processes[q]? =
      (s.processes[q]?).map (fun w => if p = q then f w else w) :=
  List.getElem?_modify f p s.processes q

theorem getElem?_modifyProcess_self {f : Process → Process} {w : Process}
    (h : s.processes[p]? = some w) : (s.modifyProcess p f).processes[p]? = some (f w) := by
  rw [getElem?_modifyProcess, h, Option.map_some, if_pos rfl]

theorem of_modifyProcess {f : Process → Process} {w' : Process}
    (h : (s.modifyProcess p f).processes[q]? = some w') :
    ∃ w, s.processes[q]? = some w ∧ (q = p ∧ w' = f w ∨ q ≠ p ∧ w' = w) := by
  rw [getElem?_modifyProcess] at h
  obtain ⟨w, hw, rfl⟩ := Option.map_eq_some_iff.mp h
  refine ⟨w, hw, ?_⟩
  by_cases hpq : p = q
  · exact .inl ⟨hpq.symm, by rw [if_pos hpq]⟩
  · exact .inr ⟨fun h => hpq h.symm, by rw [if_neg hpq]⟩

theorem forward_modifyProcess {f : Process → Process}
    (hf : ∀ w, s.processes[p]? = some w → w.Step (f w)) : s.Forward (s.modifyProcess p f) := by
  intro q w hw
  rw [getElem?_modifyProcess, hw, Option.map_some]
  refine ⟨_, rfl, ?_⟩
  by_cases hpq : p = q
  · subst hpq
    rw [if_pos rfl]
    exact hf w hw
  · rw [if_neg hpq]
    exact .refl w

theorem forward_append (ws : List Process) (h : s'.processes = s.processes ++ ws) :
    s.Forward s' := by
  intro p w hw
  refine ⟨w, ?_, .refl w⟩
  rw [h, List.getElem?_append_left (List.getElem?_eq_some_iff.mp hw).1]
  exact hw

theorem of_getElem?_concat {ws : List Process} {w₀ w : Process} {q : Nat}
    (h : (ws ++ [w₀])[q]? = some w) : ws[q]? = some w ∨ q = ws.length ∧ w = w₀ := by
  rw [List.getElem?_append] at h
  split at h
  · exact .inl h
  · have hlt := (List.getElem?_eq_some_iff.mp h).1
    rw [List.length_singleton] at hlt
    have hq : q = ws.length := by omega
    subst hq
    rw [Nat.sub_self, List.getElem?_cons_zero, Option.some.injEq] at h
    exact .inr ⟨rfl, h.symm⟩

/-! ## The steps of the registry -/

theorem Registry.of_back (h : s.Registry) (hmounts : s'.mounts = s.mounts)
    (hback : ∀ (p : ProcessId) (w' : Process), s'.processes[p]? = some w' →
      ∃ w, s.processes[p]? = some w ∧ w.Step w' ∧ (w'.registered = true → w.registered = true)) : s'.Registry := by
  have hmountOf : ∀ v, s'.mountOf v = s.mountOf v := by
    intro v
    rw [mountOf, hmounts, mountOf]
  constructor
  · intro p q w' x' hw' hx' hpq hwfin hxfin
    obtain ⟨w, hw, hstep, -⟩ := hback p w' hw'
    obtain ⟨x, hx, hstep', -⟩ := hback q x' hx'
    rw [hstep.volumeID, hstep'.volumeID, hstep.target, hstep'.target]
    exact h.distinct p q w x hw hx hpq (fun hfin => hwfin (hstep.finished hfin))
      (fun hfin => hxfin (hstep'.finished hfin))
  · intro v e he q w' hw' hvol hq
    obtain ⟨w, hw, hstep, -⟩ := hback q w' hw'
    rw [hmountOf] at he
    rw [hstep.volumeID] at hvol
    exact hstep.finished (h.sole v e he q w hw hvol hq)
  · intro p w' hw' hreg hrun hstop
    obtain ⟨w, hw, hstep, hback⟩ := hback p w' hw'
    have hstop₀ : w.stopAsked = false := by
      cases hasked : w.stopAsked with
      | false => rfl
      | true =>
        rw [hstep.stopAsked hasked] at hstop
        cases hstop
    rw [hmountOf, hstep.volumeID]
    exact h.kept p w hw (hback hreg) (hstep.running hrun) hstop₀

theorem Registry.modify (h : s.Registry) {f : Process → Process}
    (hf : ∀ w, s.processes[p]? = some w → w.Step (f w) ∧
      ((f w).registered = true → w.registered = true)) : (s.modifyProcess p f).Registry := by
  refine h.of_back rfl ?_
  intro q w' hw'
  obtain ⟨w, hw, ⟨rfl, rfl⟩ | ⟨-, rfl⟩⟩ := of_modifyProcess hw'
  · exact ⟨w, hw, hf w hw⟩
  · exact ⟨w', hw, .refl w', id⟩

theorem Registry.erase (h : s.Registry) (i : Thread)
    (hv : ∀ e, s.mountOf v = some e →
      s.Has e.process (fun w => w.stopAsked = true ∨ w.stage ≠ .running)) :
    (s.eraseMount i v).Registry := by
  constructor
  · exact h.distinct
  · intro v' e he
    by_cases hvv : v' = v
    · subst hvv
      simp [mountOf, eraseMount] at he
    · apply h.sole v' e
      simpa [mountOf, eraseMount, AList.lookup_erase_ne hvv] using he
  · intro p w hw hreg hrun hstop
    obtain ⟨e, he, hep⟩ := h.kept p w hw hreg hrun hstop
    have hvv : w.volumeID ≠ v := by
      intro heq
      rw [heq] at he
      obtain ⟨w', hw', hgone⟩ := hv e he
      have hww : w' = w := by
        rw [hep] at hw'
        exact Option.some.inj (hw'.symm.trans hw)
      rcases hgone with hasked | hexited
      · rw [hww, hstop] at hasked
        cases hasked
      · rw [hww] at hexited
        exact hexited hrun
    refine ⟨e, ?_, hep⟩
    simpa [mountOf, eraseMount, AList.lookup_erase_ne hvv] using he

theorem Registry.put (h : s.Registry) {e : MountEntry} (hsole : s.Sole v e.process)
    (hproc : s.Has e.process (fun w => w.volumeID = v)) :
    State.Registry { s.modifyProcess e.process (fun w => { w with registered := true }) with
      mounts := s.mounts.insert v e } := by
  have hforward : ∀ (q : ProcessId) (w' : Process),
      (s.modifyProcess e.process (fun w => { w with registered := true })).processes[q]? = some w' →
      ∃ w, s.processes[q]? = some w ∧ w'.volumeID = w.volumeID ∧ w'.target = w.target ∧
        w'.stage = w.stage ∧ w'.stopAsked = w.stopAsked ∧ (q ≠ e.process → w' = w) := by
    intro q w' hw'
    obtain ⟨w, hw, ⟨rfl, rfl⟩ | ⟨hq, rfl⟩⟩ := of_modifyProcess hw'
    · exact ⟨w, hw, rfl, rfl, rfl, rfl, fun hne => absurd rfl hne⟩
    · exact ⟨w', hw, rfl, rfl, rfl, rfl, fun _ => rfl⟩
  constructor
  · intro p q w' x' hw' hx' hpq hwfin hxfin
    obtain ⟨w, hw, hvol, htarget, hstage, -⟩ := hforward p w' hw'
    obtain ⟨x, hx, hvol', htarget', hstage', -⟩ := hforward q x' hx'
    rw [hvol, hvol', htarget, htarget']
    rw [hstage] at hwfin
    rw [hstage'] at hxfin
    exact h.distinct p q w x hw hx hpq hwfin hxfin
  · intro v' e' he' q w' hw' hvol hq
    obtain ⟨w, hw, hvol', -, hstage, -⟩ := hforward q w' hw'
    rw [hvol'] at hvol
    rw [hstage]
    by_cases hvv : v' = v
    · subst hvv
      have hee : e = e' := by simpa [mountOf] using he'
      subst hee
      exact hsole q w hw hvol hq
    · refine h.sole v' e' ?_ q w hw hvol hq
      simpa [mountOf, AList.lookup_insert_ne hvv] using he'
  · intro q w' hw' hreg hrun hstop
    obtain ⟨w, hw, hvol, -, hstage, hasked, hsame⟩ := hforward q w' hw'
    rw [hvol]
    rw [hstage] at hrun
    by_cases hq : q = e.process
    · obtain ⟨x, hx, hxv⟩ := hproc
      have hwx : w = x := by
        rw [hq] at hw
        exact Option.some.inj (hw.symm.trans hx)
      refine ⟨e, ?_, hq.symm⟩
      rw [hwx, hxv]
      simp [mountOf]
    · rw [hsame hq] at hreg hstop
      -- the only process of the volume that is not finished is the new one
      have hvv : w.volumeID ≠ v := by
        intro hv
        rw [hsole q w hw hv hq] at hrun
        cases hrun
      obtain ⟨e', he', heq⟩ := h.kept q w hw hreg hrun hstop
      refine ⟨e', ?_, heq⟩
      simpa [mountOf, AList.lookup_insert_ne hvv] using he'

theorem Registry.start (h : s.Registry) {cmd : Command} (hclear : s.Clear cmd) :
    State.Registry { s with processes := s.processes ++
      [⟨cmd.volumeID, cmd.target, .running, false, none, false, false, false⟩] } := by
  have hold : ∀ (q : ProcessId) (w : Process), s.processes[q]? = some w → w.stage ≠ .finished →
      w.volumeID ≠ cmd.volumeID ∧ w.target ≠ cmd.target := by
    intro q w hw hfin
    constructor
    · exact fun hv => hfin (hclear.2 w (List.mem_of_getElem? hw) (.inl hv))
    · exact fun ht => hfin (hclear.2 w (List.mem_of_getElem? hw) (.inr ht))
  constructor
  · intro p q w x hw hx hpq hwfin hxfin
    rcases of_getElem?_concat hw with hw | ⟨rfl, rfl⟩ <;> rcases of_getElem?_concat hx with hx | ⟨rfl, rfl⟩
    · exact h.distinct p q w x hw hx hpq hwfin hxfin
    · exact hold p w hw hwfin
    · exact ⟨(hold q x hx hxfin).1.symm, (hold q x hx hxfin).2.symm⟩
    · exact absurd rfl hpq
  · intro v e he q w hw hvol hq
    rcases of_getElem?_concat hw with hw | ⟨rfl, rfl⟩
    · exact h.sole v e he q w hw hvol hq
    · rw [← hvol] at he
      exact absurd (hclear.1.symm.trans he) nofun
  · intro q w hw hreg hrun hstop
    rcases of_getElem?_concat hw with hw | ⟨rfl, rfl⟩
    · exact h.kept q w hw hreg hrun hstop
    · cases hreg

end State

end ClusterState.MountManager
