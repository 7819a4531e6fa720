import ClusterState.MountManager.Discipline

/-! # Rules for the steps of a handler

What stays true for a thread while the others go on, and what the helpers of the
handlers establish.
-/

namespace ClusterState.MountManager

open Concurrency

section Stability

variable {d : Deployment} {A : Steps} {i : Thread} {s s' : State} {v : String} {p : ProcessId}

theorem locks_after {o : Operation} {x : o.Value} :
    (s.after d i o x).locks.waiting = s.locks.waiting ∧
      (s.after d i o x).locks.holding = s.locks.holding := by
  unfold State.after
  repeat' split
  all_goals exact ⟨rfl, rfl⟩

theorem locking : (discipline d A).Locking State.locks (fun s l => { s with locks := l }) where
  locks_set _ _ := rfl
  tidy _ hinv := hinv.tidy
  guard_get _ _ _ := trivial
  guard_lock _ _ _ _ := Iff.rfl
  guard_unlock _ _ _ _ := Iff.rfl
  performs_get _ _ _ _ _ hp := hp.2
  performs_lock _ _ _ _ _ _ hp := hp.2
  performs_unlock _ _ _ _ _ _ hp := hp.2
  performs_own := by
    rintro i o s x s' ⟨-, -, rfl⟩
    exact locks_after
  env := by
    rintro s s' ⟨p, w, -, -, rfl⟩
    rfl
  quiet_own := by
    intro i r hquiet
    cases r with
    | own o => exact ⟨o, rfl⟩
    | _ => cases i <;> cases hquiet

theorem forward_after {o : Operation} {x : o.Value} (hperm : Permitted d A i o s)
    (hx : s.Answers o x) : s.Forward (s.after d i o x) := by
  have hsame : ∀ {t : State}, t.processes = s.processes → s.Forward t :=
    fun h => State.forward_of_processes h
  have hstage : ∀ (q : ProcessId) (stage : Stage), s.Has q (fun w => w.stage.rank ≤ stage.rank) →
      s.Forward (s.modifyProcess q (fun w => { w with stage := stage })) := by
    rintro q stage ⟨w₀, hw₀, hrank⟩
    refine State.forward_modifyProcess fun w hw => modify_stage_step ?_
    rw [Option.some.inj (hw.symm.trans hw₀)]
    exact hrank
  have haside : ∀ {q : ProcessId} {f : Process → Process}, (∀ w : Process, w.Step (f w)) →
      s.Forward (s.modifyProcess q f) := fun hf => State.forward_modifyProcess fun w _ => hf w
  cases o with
  | putMount v e => exact haside (q := e.process) fun w => ⟨rfl, rfl, le_rfl, id, fun _ => rfl⟩
  | detachMount v =>
    cases i with
    | request n => exact hsame rfl
    | waiter q =>
      refine hstage q .finished (hperm.mono ?_)
      rintro w ⟨-, hclosed⟩
      rw [hclosed]
      decide
  | start cmd =>
    cases x with
    | ok q => exact State.forward_append _ rfl
    | error e => exact hsame rfl
  | terminate q => exact haside fun w => ⟨rfl, rfl, le_rfl, fun _ => rfl, id⟩
  | setPreserveMountOnExit q preserve => exact haside fun w => ⟨rfl, rfl, le_rfl, id, id⟩
  | recordMountFD q fd => exact haside fun w => ⟨rfl, rfl, le_rfl, id, id⟩
  | cmdWait q =>
    obtain ⟨w, hw, hexited, -⟩ := hx
    refine hstage q .reaped ⟨w, hw, ?_⟩
    simp only [hexited]
    decide
  | closeDone q =>
    refine hstage q .closed (hperm.2.mono ?_)
    intro w hreaped
    rw [hreaped]
    decide
  | takeoverInProgress =>
    cases x with
    | true => exact hsame rfl
    | false =>
      rw [State.after]
      split <;> exact hsame rfl
  | reply result =>
    cases result with
    | error e => exact hsame rfl
    | ok response =>
      cases response with
      | mounted _ q => exact haside (q := q) fun w => ⟨rfl, rfl, le_rfl, id, id⟩
      | _ => exact hsame rfl
  | _ => exact hsame rfl

/-- What the surroundings of a thread do: a worker exits, the lock table moves
on, or an operation is performed. -/
theorem interferes_cases (h : (discipline d A).Interferes i s s') :
    Inv d A s ∧ (State.Exits s s' ∨ (∃ l, s' = { s with locks := l }) ∨
      ∃ j o x, (j ≠ i ∨ Quiet j (.own o)) ∧ A j (.own o) s ∧ Permitted d A j o s ∧
        s.Answers o x ∧ s' = s.after d j o x) := by
  obtain ⟨hinv, hexits | ⟨j, r, x, hj, hguard, hallowed, hp⟩⟩ := h
  · exact ⟨hinv, .inl hexits⟩
  · refine ⟨hinv, .inr ?_⟩
    cases r with
    | get k => exact .inl ⟨_, hp.2⟩
    | lock k m => exact .inl ⟨_, hp.2⟩
    | unlock k m => exact .inl ⟨_, hp⟩
    | own o => exact .inr ⟨j, o, x, hj, hallowed, hguard, hp⟩

theorem forward_of_interferes (h : (discipline d A).Interferes i s s') : s.Forward s' := by
  obtain ⟨-, ⟨q, w, hw, hrun, rfl⟩ | ⟨l, rfl⟩ | ⟨j, o, x, -, -, hperm, hx, rfl⟩⟩ :=
    interferes_cases h
  · refine State.forward_modifyProcess fun w' hw' => modify_stage_step ?_
    rw [Option.some.inj (hw'.symm.trans hw), hrun]
    decide
  · exact State.forward_of_processes rfl
  · exact forward_after hperm hx

theorem stable_has {K : Process → Prop} (hK : ∀ w w' : Process, w.Step w' → K w → K w') :
    (discipline d A).Stable i (fun s => s.Has p K) :=
  fun _ _ h hs => hs.forward (forward_of_interferes h) hK

def Entered (d : Deployment) (i : Thread) (s : State) : Prop := d.client i = true → i ∈ s.active

theorem stable_entered : (discipline d A).Stable i (Entered d i) := by
  intro s s' h hs hclient
  have hmem := hs hclient
  obtain ⟨-, ⟨q, w, -, -, rfl⟩ | ⟨l, rfl⟩ | ⟨j, o, x, hj, -, -, -, rfl⟩⟩ := interferes_cases h
  · exact hmem
  · exact hmem
  · cases o with
    | takeoverInProgress =>
      cases x with
      | true => exact hmem
      | false =>
        rw [State.after]
        split
        · exact List.mem_cons_of_mem _ hmem
        · exact hmem
    | reply result =>
      have hji : j ≠ i := hj.resolve_right fun hquiet => by cases j <;> cases hquiet
      have hkept : i ∈ s.active.filter (· ≠ j) :=
        List.mem_filter.mpr ⟨hmem, by simpa using hji.symm⟩
      cases result with
      | error e => exact hkept
      | ok response => cases response <;> exact hkept
    | detachMount v => cases j <;> exact hmem
    | start cmd => cases x <;> exact hmem
    | _ => exact hmem

theorem Inv.holder_eq (h : Inv d A s) (hfresh : A.Meet FreshGets) {j : Thread}
    (hi : s.Holds i v) (hj : s.Holds j v) : j = i := by
  obtain ⟨m, hm⟩ := hi
  obtain ⟨m', hm'⟩ := hj
  exact KeyedLock.exclusive_of_coherent h.tidy (h.coherent hfresh) _ hm' _ hm rfl

theorem stable_holds : (discipline d A).Stable i (fun s => s.Holds i v) := by
  rintro s s' h ⟨m, hm⟩
  exact ⟨m, (locking.stable_use rfl).2 s s' h hm⟩

theorem mountOf_after {o : Operation} {x : o.Value} :
    (s.after d i o x).mountOf v = s.mountOf v ∨ (s.after d i o x).mountOf v = none ∨
      ∃ e, o = .putMount v e := by
  have herase : ∀ u, (s.mounts.erase u).lookup v = s.mounts.lookup v ∨
      (s.mounts.erase u).lookup v = none := by
    intro u
    by_cases huv : v = u
    · subst huv
      exact .inr (AList.lookup_erase v s.mounts)
    · exact .inl (AList.lookup_erase_ne huv)
  cases o with
  | putMount u e =>
    by_cases huv : v = u
    · subst huv
      exact .inr (.inr ⟨e, rfl⟩)
    · exact .inl (AList.lookup_insert_ne huv)
  | removeMount u => exact (herase u).imp_right .inl
  | detachMount u => cases i <;> exact (herase u).imp_right .inl
  | takeoverInProgress =>
    cases x with
    | true => exact .inl rfl
    | false =>
      rw [State.after]
      split <;> exact .inl rfl
  | start cmd => cases x <;> exact .inl rfl
  | reply result =>
    cases result with
    | error e => exact .inl rfl
    | ok response => cases response <;> exact .inl rfl
  | _ => exact .inl rfl

/-- The entry a holder of the volume found can only disappear. -/
theorem stable_entry {e : MountEntry} : (discipline d A).Stable i (fun s => s.Holds i v ∧
    (A.Orderly → s.mountOf v = some e ∨ s.mountOf v = none)) := by
  intro s s' h hs
  refine ⟨stable_holds s s' h hs.1, fun horderly => ?_⟩
  obtain ⟨hinv, ⟨q, w, -, -, rfl⟩ | ⟨l, rfl⟩ | ⟨j, o, x, hj, -, hperm, -, rfl⟩⟩ :=
    interferes_cases h
  · exact hs.2 horderly
  · exact hs.2 horderly
  · rcases mountOf_after (d := d) (i := j) (o := o) (x := x) (s := s) (v := v) with
      hsame | hnone | ⟨e', rfl⟩
    · rw [hsame]
      exact hs.2 horderly
    · exact .inr hnone
    · have hji := hinv.holder_eq horderly.1 hs.1 hperm.1
      have hquiet := hj.resolve_left fun hne => hne hji
      cases j <;> cases hquiet

theorem started_of_after {o : Operation} {x : o.Value} {q : Nat} {w : Process}
    (hw : (s.after d i o x).processes[q]? = some w) (hq : s.processes.length ≤ q) :
    ∃ cmd, o = .start cmd ∧ w.volumeID = cmd.volumeID := by
  have hnone : s.processes[q]? ≠ some w := by
    rw [List.getElem?_eq_none hq]
    exact nofun
  have hmodify : ∀ {r : ProcessId} {f : Process → Process},
      (s.modifyProcess r f).processes[q]? ≠ some w := by
    intro r f hmem
    obtain ⟨w₀, hw₀, -⟩ := State.of_modifyProcess hmem
    rw [List.getElem?_eq_none hq] at hw₀
    cases hw₀
  cases o with
  | start cmd =>
    cases x with
    | error e => exact absurd hw hnone
    | ok r =>
      refine ⟨cmd, rfl, ?_⟩
      have hmem := List.mem_of_getElem? ((List.getElem?_append_right hq).symm.trans hw)
      rw [List.mem_singleton.mp hmem]
  | putMount v e => exact absurd hw hmodify
  | detachMount v =>
    cases i with
    | request n => exact absurd hw hnone
    | waiter r => exact absurd hw hmodify
  | takeoverInProgress =>
    cases x with
    | true => exact absurd hw hnone
    | false =>
      rw [State.after] at hw
      split at hw <;> exact absurd hw hnone
  | reply result =>
    cases result with
    | error e => exact absurd hw hnone
    | ok response =>
      cases response with
      | mounted _ r => exact absurd hw hmodify
      | _ => exact absurd hw hnone
  | terminate r => exact absurd hw hmodify
  | setPreserveMountOnExit r preserve => exact absurd hw hmodify
  | recordMountFD r fd => exact absurd hw hmodify
  | cmdWait r => exact absurd hw hmodify
  | closeDone r => exact absurd hw hmodify
  | _ => exact absurd hw hnone

theorem stable_sole : (discipline d A).Stable i (fun s => (s.Holds i v ∧
    s.Has p (fun w => w.volumeID = v)) ∧ (A.Orderly → s.Sole v p)) := by
  intro s s' h hs
  have hforward := forward_of_interferes h
  refine ⟨⟨stable_holds s s' h hs.1.1, hs.1.2.forward hforward
    fun w w' hstep hw => hstep.volumeID.trans hw⟩, fun horderly => ?_⟩
  have hsole := hs.2 horderly
  intro q w' hw' hvol hq
  -- a process that was there before was finished, and a new one is not of the volume
  rcases lt_or_ge q s.processes.length with hlt | hge
  · obtain ⟨w, hw⟩ : ∃ w, s.processes[q]? = some w := ⟨_, List.getElem?_eq_getElem hlt⟩
    obtain ⟨w'', hw'', hstep⟩ := hforward q w hw
    obtain rfl : w'' = w' := Option.some.inj (hw''.symm.trans hw')
    rw [hstep.volumeID] at hvol
    exact hstep.finished (hsole q w hw hvol hq)
  · obtain ⟨hinv, ⟨r, w, -, -, rfl⟩ | ⟨l, rfl⟩ | ⟨j, o, x, hj, -, hperm, -, rfl⟩⟩ :=
      interferes_cases h
    · obtain ⟨w₀, hw₀, -⟩ := State.of_modifyProcess hw'
      rw [List.getElem?_eq_none hge] at hw₀
      cases hw₀
    · rw [List.getElem?_eq_none hge] at hw'
      cases hw'
    · obtain ⟨cmd, rfl, hcmd⟩ := started_of_after hw' hge
      rw [hcmd] at hvol
      rw [Permitted, hvol] at hperm
      have hji := hinv.holder_eq horderly.1 hs.1.1 hperm
      have hquiet := hj.resolve_left fun hne => hne hji
      cases j <;> cases hquiet

end Stability

end ClusterState.MountManager
