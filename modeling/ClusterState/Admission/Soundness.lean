import ClusterState.Admission.Recovery
import ClusterState.Admission.Workers

/-! # Every run follows the discipline

The four programs together: whatever a run reaches satisfies the invariant, and
every request that is issued is permitted. What the claims about runs need of
this is collected at the end, in terms of the history of the state object and
the record of requests.
-/

namespace ClusterState.Admission

open Concurrency

theorem SelfIdentified.valid {r : Role} {me : Identity} (h : SelfIdentified r.ns me) :
    me.Valid r.ns := by
  obtain ⟨value, items, pod, hitems, hpod, hident⟩ := h
  refine podIdentity_valid ?_ hitems hpod hident
  cases r
  · exact .inr rfl
  · exact .inr rfl
  · exact .inl rfl
  · exact .inl rfl

section

variable {d : Deployment} {sha256 : String → String} {run run' : Run}

theorem meets_program {c : Cluster} (hlog : c.log = []) (uid : String) (i : Identity) :
    (discipline d sha256).Meets i (fun _ _ => True) (fun _ _ => True)
      (d.program sha256 uid i) c := by
  have hput : NoPut i c.log := by simp [NoPut, hlog]
  unfold Deployment.program
  split
  · trivial
  · rename_i hrole
    exact meets_coordinate (d.self i _ hrole).valid ⟨hput, by simp [hlog]⟩
  · rename_i hrole
    exact meets_recover (d.self i _ hrole).valid (by simp [Licensed, hrole]) hput
  · rename_i hrole
    exact meets_worker (by simp [Licensed, hrole])
  · rename_i hrole
    exact meets_gc (d.self i _ hrole).valid (by simp [Licensed, hrole])

theorem Deployment.Reachable.sound (h : d.Reachable sha256 run) :
    (discipline d sha256).Sound run := by
  obtain ⟨c, hboot, hreaches⟩ := h
  have hstart : (discipline d sha256).Sound (⟨d.program sha256 c.uid, c⟩ : Run) :=
    ⟨hboot.inv, fun i => meets_program hboot.log c.uid i⟩
  exact hstart.reaches hreaches

theorem Deployment.Reachable.inv (h : d.Reachable sha256 run) : Inv d sha256 run.shared :=
  h.sound.1

theorem Deployment.Reachable.permitted (h : d.Reachable sha256 run) {i : Identity} {r : Request}
    {next : Answer r → Api Unit} (hask : run.procs i = .ask r next)
    (halive : i ∉ run.shared.retired) : Permitted d sha256 i run.shared r :=
  h.sound.guard hask halive

theorem Deployment.Reachable.step (h : d.Reachable sha256 run) (hstep : system.Step run run') :
    (run'.shared.version = run.shared.version ∧ run'.shared.past = run.shared.past) ∨
      ∃ i, run'.shared.version = run.shared.version + 1 ∧
        Commit sha256 run.shared i run.shared.state run'.shared.state := by
  cases hstep with
  | act i r next x c' hask hp =>
    have hpermit := h.permitted hask (Cluster.Performs.alive hp)
    cases hp with
    | answers c r x halive hx => exact .inl ⟨rfl, rfl⟩
    | fails c r e halive => exact .inl ⟨rfl, rfl⟩
    | commits c desired x halive hcurrent =>
      refine .inr ⟨i, rfl, ?_⟩
      have hstate : ((run.shared.commit desired.data).record i _ x).state = desired.data := by
        rw [Cluster.record_state, Cluster.commit_state]
      exact hstate.symm ▸ hpermit.1 hcurrent
  | env c' hdrifts =>
    cases hdrifts <;> exact .inl ⟨rfl, rfl⟩

end

/-! ## Consequences for the history -/

theorem exists_suffix_of_sublist {a b : Event} {log : List Event} (h : [a, b].Sublist log) :
    ∃ pre, a :: pre <:+ log ∧ b ∈ pre := by
  obtain ⟨new, old, rfl, ha, hb⟩ := List.cons_sublist_iff.mp h
  obtain ⟨s, t, rfl⟩ := List.append_of_mem ha
  refine ⟨t ++ old, ⟨s, by simp⟩, List.mem_append_right t (List.singleton_sublist.mp hb)⟩

theorem exists_suffix_of_mem {a : Event} {log : List Event} (h : a ∈ log) :
    ∃ pre, a :: pre <:+ log := by
  obtain ⟨new, pre, rfl⟩ := List.append_of_mem h
  exact ⟨pre, new, rfl⟩

def Cluster.generationTexts (c : Cluster) : Set String :=
  { t | ∃ v ≤ c.version, ∃ op, (c.past v).operation = some op ∧
    t = generationText op.slot op.coordinator.uid (c.past v).policy }

section

variable {d : Deployment} {sha256 : String → String} {c : Cluster}

/-- Operations with one id are one operation, as long as the hash function does
not confuse two that occur. -/
theorem Inv.slot_of_id (h : Inv d sha256 c) (hsha : Set.InjOn sha256 c.generationTexts)
    {u v : Nat} (hu : u ≤ c.version) (hv : v ≤ c.version) {op op' : Operation}
    (hop : (c.past u).operation = some op) (hop' : (c.past v).operation = some op')
    (hid : op.id = op'.id) : op.slot = op'.slot := by
  have hname := ((h.sane u hu).valid.operation op hop).1.id
  have hname' := ((h.sane v hv).valid.operation op' hop').1.id
  rw [hname, hname'] at hid
  exact slot_of_generationText
    (hsha ⟨u, hu, op, hop, rfl⟩ ⟨v, hv, op', hop', rfl⟩ hid)

/-- Admission and claim are one stretch of the history of an operation each. -/
theorem Inv.phase_convex (h : Inv d sha256 c) {p : Phase} (hp : p = .admitted ∨ p = .claimed)
    {u v w : Nat} (huv : u ≤ v) (hvw : v ≤ w) (hw : w ≤ c.version) {op op' : Operation}
    (hop : (c.past u).operation = some op) (hop' : (c.past w).operation = some op')
    (hslot : op.slot = op'.slot) (hu : (c.past u).phase = p) (hpw : (c.past w).phase = p) :
    (c.past v).phase = p := by
  obtain ⟨op₁, hop₁, hstep₁⟩ := (h.later huv (hvw.trans hw)).2 op hop
  obtain ⟨op₂, hop₂, hstep₂⟩ := (h.later hvw hw).2 op₁ hop₁
  obtain rfl : op₂ = op' := by simpa [hop₂] using hop'
  rcases hstep₁ with ⟨hc₁, hr₁⟩ | hlt₁ <;> rcases hstep₂ with ⟨hc₂, hr₂⟩ | hlt₂
  · rw [hu] at hr₁
    rw [hpw] at hr₂
    exact Phase.eq_of_rank hp (Nat.le_antisymm hr₂ hr₁)
  · have := hc₁.slot
    omega
  · have := hc₂.slot
    omega
  · omega

/-- The operation behind a PUT on the runner is in the history, as its intent. -/
theorem Inv.intent (h : Inv d sha256 c) {i : Identity} {o : Operation} {paused : Bool}
    {pre : List Event} (hintent : Intent i o paused pre) (hpre : pre <:+ c.log) :
    ∃ v ≤ c.version, (c.past v).operation = some o ∧
      (c.past v).phase = if paused then .pauseIntent else .restoring := by
  cases paused with
  | true =>
    obtain ⟨s, hsaved, hop, hphase, _⟩ := hintent
    obtain ⟨v, hv, rfl⟩ := h.saved hsaved hpre
    exact ⟨v, hv, hop, hphase⟩
  | false =>
    obtain ⟨_, s, hsaved, hop, hphase, _⟩ := hintent
    obtain ⟨v, hv, rfl⟩ := h.saved hsaved hpre
    exact ⟨v, hv, hop, hphase⟩

/-- The pod behind a PUT on the runner: the coordinator of the operation for a
pause, its holder for a restoration. -/
def Operation.Writer (o : Operation) (paused : Bool) (i : Identity) : Prop :=
  if paused then o.coordinator = i else o.holder = some i

theorem Intent.writer {i : Identity} {o : Operation} {paused : Bool} {log : List Event}
    (h : Intent i o paused log) : o.Writer paused i := by
  cases paused with
  | true =>
    obtain ⟨_, _, _, _, _, hcoord⟩ := h
    exact hcoord
  | false =>
    obtain ⟨_, _, _, _, _, _, hholder⟩ := h
    exact hholder

/-- In a history without a second restoration, two PUTs of one kind for one
slot come from the same pod. -/
theorem Inv.writer_eq (h : Inv d sha256 c) (hclean : ¬RereadRestored c.log) {u v : Nat}
    (hu : u ≤ c.version) (hv : v ≤ c.version) {o o' : Operation} {paused : Bool} {i j : Identity}
    (ho : (c.past u).operation = some o) (ho' : (c.past v).operation = some o')
    (hslot : o.slot = o'.slot) (hi : o.Writer paused i) (hj : o'.Writer paused j) : i = j := by
  wlog huv : u ≤ v generalizing u v o o' i j
  · exact (this hv hu ho' ho hslot.symm hj hi (by omega)).symm
  obtain ⟨hc, _⟩ := h.continues huv hv ho ho' hslot
  cases paused with
  | true => exact (hi.symm.trans hc.coordinator.symm).trans hj
  | false =>
    have hholder : o'.holder = some i := hc.holder hclean i hi
    have hj : o'.holder = some j := hj
    simpa [hholder] using hj

theorem Inv.alert_kept (h : Inv d sha256 c) (hclean : ¬RereadAlert c.log) {u v : Nat}
    (huv : u ≤ v) (hv : v ≤ c.version) (hu : (c.past u).phase = .alert) :
    (c.past v).phase = .alert := by
  induction v, huv using Nat.le_induction with
  | base => exact hu
  | succ v huv ih =>
    obtain ⟨i, hcommit⟩ := h.linked v (by omega)
    exact hcommit.alert_kept (ih (by omega)) hclean

end

end ClusterState.Admission
