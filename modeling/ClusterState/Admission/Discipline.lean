import ClusterState.Admission.History

/-! # The discipline of the maintenance pods

When a pod may issue which request, and the invariant of the cluster that the
pods keep up by following this rule. A PUT of the state has to be a `Commit`
if it arrives in time; a PUT on the runner follows its durable intent and is
the only one of its pod.
-/

namespace ClusterState.Admission

open Concurrency

/-! ## Readings of and writes to the runner -/

def Event.reading (i : Identity) : Event → Option (Except Fault RunnerValue)
  | ⟨who, .getRunner, x⟩ => if who = i then some x else none
  | _ => none

/-- The first reading of the runner by the pod. -/
def baseline (i : Identity) (log : List Event) : Option (Except Fault RunnerValue) :=
  (log.filterMap (Event.reading i)).getLast?

def Unpaused (i : Identity) (log : List Event) : Prop :=
  ∃ value, baseline i log = some (.ok value) ∧ runnerOf value = .ok false

def Request.Writes : Request → Prop
  | .putState _ | .putRunner _ _ => True
  | _ => False

def NoPut (i : Identity) (log : List Event) : Prop :=
  ∀ e ∈ log, e.who = i → ∀ o paused, e.request ≠ .putRunner o paused

/-- The durable intent behind a PUT on the runner. A restoration also has the
acknowledged pause behind it. -/
def Intent (i : Identity) (o : Operation) : Bool → List Event → Prop
  | true, log => ∃ s, Saved i s log ∧ s.operation = some o ∧ s.phase = .pauseIntent ∧
      o.write = .pause ∧ o.coordinator = i
  | false, log => PauseAcked o log ∧ ∃ s, Saved i s log ∧ s.operation = some o ∧
      s.phase = .restoring ∧ o.write = .restore ∧ o.holder = some i

theorem baseline_mono {i : Identity} {log log' : List Event} {x : Except Fault RunnerValue}
    (h : baseline i log = some x) (hl : log <:+ log') : baseline i log' = some x := by
  obtain ⟨new, rfl⟩ := hl
  rw [baseline, List.filterMap_append, List.getLast?_append]
  simp only [baseline] at h
  rw [h]
  rfl

theorem Unpaused.mono {i : Identity} {log log' : List Event} (h : Unpaused i log)
    (hl : log <:+ log') : Unpaused i log' := by
  obtain ⟨value, hb, hv⟩ := h
  exact ⟨value, baseline_mono hb hl, hv⟩

theorem NoPut.cons {i : Identity} {log : List Event} (h : NoPut i log) {e : Event}
    (he : e.who = i → ∀ o paused, e.request ≠ .putRunner o paused) : NoPut i (e :: log) := by
  intro e' he'
  rcases List.mem_cons.mp he' with rfl | hmem
  · exact he
  · exact h e' hmem

def Mark.fence : Mark → Option String
  | .claimReturned operation | .checkReturned operation => some operation
  | _ => none

/-! ## Invariant and guards -/

section

variable (d : Deployment) (sha256 : String → String)

structure Inv (c : Cluster) : Prop where
  clock : 0 ≤ c.clock
  sane : ∀ v ≤ c.version, (c.past v).Sane sha256 c
  linked : ∀ v < c.version, ∃ i, Commit sha256 c i (c.past v) (c.past (v + 1))
  committed : ∀ i desired, ⟨i, .putState desired, .ok ()⟩ ∈ c.log →
    ∃ v ≤ c.version, c.past v = desired.data
  baseline : ∀ e ∈ c.log, d.role e.who = some .coordinator → e.request.Writes →
    Unpaused e.who c.log
  puts : ∀ i o paused x pre, ⟨i, .putRunner o paused, x⟩ :: pre <:+ c.log →
    NoPut i pre ∧ Intent i o paused pre
  fences : ∀ w m id x pre, m.fence = some id → ⟨w, .note m, x⟩ :: pre <:+ c.log →
    ∃ v ≤ c.version, ∃ op, (c.past v).operation = some op ∧ op.id = id ∧
      ∀ i o y, ⟨i, .putRunner o false, y⟩ ∈ pre → o.slot ≠ op.slot
  bound : ∀ w m id x, m.fence = some id → ⟨w, .note m, x⟩ ∈ c.log →
    w ∈ c.retired ∨ Bound w id c.state
  held : ∀ g x, ⟨g, .note .gcReturned, x⟩ ∈ c.log → g ∈ c.retired ∨ HoldsGc g c.state

/-- When a pod that is alive may issue the request. -/
def Permitted (i : Identity) (c : Cluster) : Request → Prop
  | .putState desired => (c.Current desired → Commit sha256 c i c.state desired.data) ∧
      (d.role i = some .coordinator → Unpaused i c.log)
  | .putRunner o paused => NoPut i c.log ∧ Intent i o paused c.log ∧
      (paused = false → Restores i o c.state) ∧
      (d.role i = some .coordinator → Unpaused i c.log)
  | .note (.saving state uid policy) => validate sha256 state uid policy = .ok ()
  | .note (.claimReturned operation) => Bound i operation c.state
  | .note (.checkReturned operation) => Bound i operation c.state
  | .note .gcReturned => HoldsGc i c.state
  | _ => True

def Guard (i : Identity) (r : Request) (c : Cluster) : Prop :=
  i ∉ c.retired → Permitted d sha256 i c r

end

section Preservation

variable {d : Deployment} {sha256 : String → String} {c c' : Cluster} {i : Identity}

theorem Inv.current (h : Inv d sha256 c) : c.state.Sane sha256 c := h.sane c.version le_rfl

theorem Inv.later (h : Inv d sha256 c) {u v : Nat} (huv : u ≤ v) (hv : v ≤ c.version) :
    (c.past u).Later (¬RereadRestored c.log) (c.past v) := by
  induction v, huv using Nat.le_induction with
  | base => exact .refl _
  | succ v huv ih =>
    obtain ⟨i, hcommit⟩ := h.linked v (by omega)
    exact (ih (by omega)).trans (hcommit.later (h.sane v (by omega)))

theorem Inv.continues (h : Inv d sha256 c) {u v : Nat} (huv : u ≤ v) (hv : v ≤ c.version)
    {op op' : Operation} (hop : (c.past u).operation = some op)
    (hop' : (c.past v).operation = some op') (hslot : op.slot = op'.slot) :
    op.Continues (¬RereadRestored c.log) op' ∧ (c.past u).phase.rank ≤ (c.past v).phase.rank := by
  obtain ⟨op₁, hop₁, hcases⟩ := (h.later huv hv).2 op hop
  obtain rfl : op₁ = op' := by simpa [hop₁] using hop'
  rcases hcases with hc | hlt
  · exact hc
  · omega

theorem Inv.saved (h : Inv d sha256 c) {s : State} {pre : List Event} (hs : Saved i s pre)
    (hpre : pre <:+ c.log) : ∃ v ≤ c.version, c.past v = s := by
  obtain ⟨desired, cm, hdata, _, hsub⟩ := hs
  obtain ⟨v, hv, hpast⟩ := h.committed i desired (hpre.subset (hsub.subset (by simp)))
  exact ⟨v, hv, hpast.trans hdata⟩

theorem Inv.restored_in_history (h : Inv d sha256 c) {o : Operation} {j : Identity}
    {y : Answer (.putRunner o false)} (hmem : ⟨j, .putRunner o false, y⟩ ∈ c.log) :
    ∃ v ≤ c.version, (c.past v).operation = some o ∧ o.holder = some j := by
  obtain ⟨new, pre, hsplit⟩ := List.append_of_mem hmem
  have hpre : ⟨j, .putRunner o false, y⟩ :: pre <:+ c.log := ⟨new, hsplit.symm⟩
  obtain ⟨_, _, s, hsaved, hop, _, _, hholder⟩ := h.puts j o false y pre hpre
  obtain ⟨v, hv, hpast⟩ := h.saved hsaved ((List.suffix_cons _ _).trans hpre)
  exact ⟨v, hv, hpast ▸ hop, hholder⟩

/-- A worker that has claimed an operation excludes every restoration of it. -/
theorem Inv.unrestored (h : Inv d sha256 c) {id : String} (hb : Bound i id c.state) :
    ∃ op, c.state.operation = some op ∧ op.id = id ∧
      ∀ j o y, ⟨j, .putRunner o false, y⟩ ∈ c.log → o.slot ≠ op.slot := by
  obtain ⟨op, hop, hid, _, _, hnone, _⟩ := hb
  refine ⟨op, hop, hid, fun j o y hmem hslot => ?_⟩
  obtain ⟨v, hv, ho, hholder⟩ := h.restored_in_history hmem
  obtain ⟨hc, _⟩ := h.continues hv le_rfl ho hop hslot
  have := hc.sealed (by simp [hholder])
  simp [hnone] at this

theorem Inv.drifts (h : Inv d sha256 c) (hd : c.Drifts c') : Inv d sha256 c' := by
  have hc := hd.extends
  obtain ⟨hversion, hpast, hlog⟩ : c'.version = c.version ∧ c'.past = c.past ∧ c'.log = c.log := by
    cases hd <;> exact ⟨rfl, rfl, rfl⟩
  have hstate : c'.state = c.state := by simp only [Cluster.state, hversion, hpast]
  refine ⟨h.clock.trans hc.clock, ?_, ?_, ?_, ?_, ?_, ?_, ?_, ?_⟩
  · rw [hversion, hpast]
    exact fun v hv => (h.sane v hv).mono hc
  · rw [hversion, hpast]
    intro v hv
    obtain ⟨i, hcommit⟩ := h.linked v hv
    exact ⟨i, hcommit.mono hc⟩
  · rw [hversion, hpast, hlog]
    exact h.committed
  · rw [hlog]
    exact h.baseline
  · rw [hlog]
    exact h.puts
  · rw [hversion, hpast, hlog]
    exact h.fences
  · rw [hlog, hstate]
    exact fun w m id x hm hmem => (h.bound w m id x hm hmem).imp_left (fun hr => hc.retired hr)
  · rw [hlog, hstate]
    exact fun g x hmem => (h.held g x hmem).imp_left (fun hr => hc.retired hr)

theorem Inv.commit (h : Inv d sha256 c) {s : State} (hcommit : Commit sha256 c i c.state s) :
    Inv d sha256 (c.commit s) := by
  have hc := Cluster.extends_commit c s
  have hnew : (c.commit s).past (c.version + 1) = s := by simp [Cluster.commit]
  refine ⟨h.clock, ?_, ?_, ?_, h.baseline, h.puts, ?_, ?_, ?_⟩
  · intro v hv
    rcases Nat.lt_or_ge c.version v with hlt | hle
    · obtain rfl : v = c.version + 1 := Nat.le_antisymm hv hlt
      rw [hnew]
      exact (hcommit.sane h.current).mono hc
    · rw [hc.past v hle]
      exact (h.sane v hle).mono hc
  · intro v hv
    rcases Nat.lt_or_ge v c.version with hlt | hge
    · obtain ⟨j, hj⟩ := h.linked v hlt
      rw [hc.past v hlt.le, hc.past (v + 1) hlt]
      exact ⟨j, hj.mono hc⟩
    · obtain rfl : v = c.version := Nat.le_antisymm (Nat.lt_succ_iff.mp hv) hge
      rw [hnew, hc.past c.version le_rfl]
      exact ⟨i, hcommit.mono hc⟩
  · intro j desired hmem
    obtain ⟨v, hv, hdata⟩ := h.committed j desired hmem
    exact ⟨v, hv.trans hc.version, (hc.past v hv).trans hdata⟩
  · intro w m id x pre hm hpre
    obtain ⟨v, hv, op, hop, hrest⟩ := h.fences w m id x pre hm hpre
    exact ⟨v, hv.trans hc.version, op, (hc.past v hv).symm ▸ hop, hrest⟩
  · intro w m id x hm hmem
    rcases h.bound w m id x hm hmem with hr | hb
    · exact .inl hr
    · by_cases hr : w ∈ c.retired
      · exact .inl hr
      · rw [Cluster.commit_state]
        exact .inr (hcommit.bound h.current hr hb)
  · intro g x hmem
    rcases h.held g x hmem with hr | hg
    · exact .inl hr
    · by_cases hr : g ∈ c.retired
      · exact .inl hr
      · rw [Cluster.commit_state]
        exact .inr (hcommit.holdsGc hr hg)

/-- What the record of a request has to satisfy. -/
structure EventOk (d : Deployment) (c : Cluster) (i : Identity) (r : Request) (x : Answer r) :
    Prop where
  committed : ∀ desired, (⟨i, r, x⟩ : Event) = ⟨i, .putState desired, .ok ()⟩ →
    ∃ v ≤ c.version, c.past v = desired.data
  baseline : d.role i = some .coordinator → r.Writes → Unpaused i c.log
  put : ∀ o paused, r = .putRunner o paused → NoPut i c.log ∧ Intent i o paused c.log
  fence : ∀ m id, r = .note m → m.fence = some id → Bound i id c.state
  held : r = .note .gcReturned → HoldsGc i c.state

theorem Inv.record (h : Inv d sha256 c) {r : Request} {x : Answer r} (he : EventOk d c i r x) :
    Inv d sha256 (c.record i r x) := by
  have hc := Cluster.extends_record c i r x
  refine ⟨h.clock, fun v hv => (h.sane v hv).mono hc, ?_, ?_, ?_, ?_, ?_, ?_, ?_⟩
  · intro v hv
    obtain ⟨j, hj⟩ := h.linked v hv
    exact ⟨j, hj.mono hc⟩
  · intro j desired hmem
    rcases List.mem_cons.mp hmem with heq | hmem
    · obtain rfl : j = i := congrArg Event.who heq
      exact he.committed desired heq.symm
    · exact h.committed j desired hmem
  · intro e hmem hrole hwrites
    rcases List.mem_cons.mp hmem with rfl | hmem
    · exact (he.baseline hrole hwrites).mono hc.log
    · exact (h.baseline e hmem hrole hwrites).mono hc.log
  · intro j o paused y pre hpre
    rcases List.suffix_cons_iff.mp hpre with heq | hpre
    · cases heq
      exact he.put o paused rfl
    · exact h.puts j o paused y pre hpre
  · intro w m id y pre hm hpre
    rcases List.suffix_cons_iff.mp hpre with heq | hpre
    · cases heq
      obtain ⟨op, hop, hid, hrest⟩ := h.unrestored (he.fence m id rfl hm)
      exact ⟨c.version, le_rfl, op, hop, hid, hrest⟩
    · exact h.fences w m id y pre hm hpre
  · intro w m id y hm hmem
    rcases List.mem_cons.mp hmem with heq | hmem
    · cases heq
      exact .inr (he.fence m id rfl hm)
    · exact h.bound w m id y hm hmem
  · intro g y hmem
    rcases List.mem_cons.mp hmem with heq | hmem
    · cases heq
      exact .inr (he.held rfl)
    · exact h.held g y hmem

theorem Permitted.fence {m : Mark} (h : Permitted d sha256 i c (.note m)) {id : String}
    (hm : m.fence = some id) : Bound i id c.state := by
  cases m with
  | claimReturned operation => cases hm; exact h
  | checkReturned operation => cases hm; exact h
  | _ => cases hm

/-- A permitted request may be recorded with any answer, except that a PUT of
the state is only acknowledged when it has been committed. -/
theorem Permitted.eventOk {r : Request} {x : Answer r} (h : Permitted d sha256 i c r)
    (hx : ∀ desired, (⟨i, r, x⟩ : Event) ≠ ⟨i, .putState desired, .ok ()⟩) :
    EventOk d c i r x where
  committed desired heq := absurd heq (hx desired)
  baseline hrole hwrites := by
    cases r with
    | putState desired => exact h.2 hrole
    | putRunner o paused => exact h.2.2.2 hrole
    | _ => cases hwrites
  put := by
    rintro o paused rfl
    exact ⟨h.1, h.2.1⟩
  fence := by
    rintro m id rfl hm
    exact h.fence hm
  held := by
    rintro rfl
    exact h

theorem Inv.performs (h : Inv d sha256 c) {r : Request} {x : Answer r} (hg : Guard d sha256 i r c)
    (hp : c.Performs i r x c') : Inv d sha256 c' := by
  have hpermit := hg hp.alive
  cases hp with
  | answers c r x halive hx =>
    refine h.record (hpermit.eventOk ?_)
    rintro desired heq
    cases heq
    exact hx
  | fails c r e halive =>
    refine h.record (hpermit.eventOk ?_)
    rintro desired heq
    cases heq
  | commits c desired x halive hcurrent =>
    have hinv := h.commit (hpermit.1 hcurrent)
    refine hinv.record ⟨?_, fun hrole _ => hpermit.2 hrole, ?_, ?_, ?_⟩
    · rintro _ heq
      cases heq
      exact ⟨c.version + 1, le_rfl, by simp [Cluster.commit]⟩
    · rintro o paused ⟨⟩
    · rintro m id ⟨⟩
    · rintro ⟨⟩

end Preservation

def discipline (d : Deployment) (sha256 : String → String) :
    Discipline Identity Request Answer Cluster where
  toSystem := system
  inv := Inv d sha256
  guard := Guard d sha256
  quiet _ := Request.Observes
  guard_of_quiet i r c hquiet _ := by
    cases r <;> trivial
  inv_performs _ _ _ _ _ hinv hguard hperforms := hinv.performs hguard hperforms
  inv_env _ _ hinv hdrifts := hinv.drifts hdrifts

theorem Bootstrap.inv {d : Deployment} {sha256 : String → String} {c : Cluster}
    (h : Bootstrap sha256 c) : Inv d sha256 c := by
  obtain ⟨policy, hvalid⟩ := h.valid
  have hlog := h.log
  refine ⟨h.clock, ?_, ?_, ?_, ?_, ?_, ?_, ?_, ?_⟩
  · intro v hv
    obtain rfl : v = c.version := by have := h.version; omega
    refine ⟨?_, fun _ => h.operation, ?_⟩
    · change c.state.Valid sha256 c.uid c.state.policy
      rw [hvalid.policy_eq]
      exact hvalid
    · intro op hop
      have hnone : (c.past c.version).operation = none := h.operation
      rw [hnone] at hop
      cases hop
  · intro v hv
    rw [h.version] at hv
    exact absurd hv (Nat.not_lt_zero v)
  all_goals
    rw [hlog]
    simp

end ClusterState.Admission
