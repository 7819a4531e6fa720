import ClusterState.Admission.Cluster

/-! # The protocol of committed states

Which states may follow which: one constructor of `Commit` for each place at
which the source saves a state, with what the pod that saves it has
established. Everything it has established stays true as the cluster moves on,
so a `Commit` remains one until the PUT arrives.
-/

namespace ClusterState.Admission

namespace Cluster

/-- The cluster has moved on: nothing that happened is undone. -/
structure Extends (c c' : Cluster) : Prop where
  uid : c'.uid = c.uid
  version : c.version ≤ c'.version
  past : ∀ v ≤ c.version, c'.past v = c.past v
  clock : c.clock ≤ c'.clock
  retired : c.retired ⊆ c'.retired
  log : c.log <:+ c'.log

theorem Extends.refl (c : Cluster) : Extends c c :=
  ⟨rfl, le_rfl, fun _ _ => rfl, le_rfl, fun _ h => h, List.suffix_rfl⟩

theorem Extends.trans {a b c : Cluster} (h : Extends a b) (h' : Extends b c) : Extends a c where
  uid := h'.uid.trans h.uid
  version := h.version.trans h'.version
  past v hv := (h'.past v (hv.trans h.version)).trans (h.past v hv)
  clock := h.clock.trans h'.clock
  retired _ hi := h'.retired (h.retired hi)
  log := h.log.trans h'.log

theorem extends_record (c : Cluster) (who : Identity) (r : Request) (x : Answer r) :
    Extends c (c.record who r x) :=
  ⟨rfl, le_rfl, fun _ _ => rfl, le_rfl, fun _ h => h, List.suffix_cons _ _⟩

theorem extends_commit (c : Cluster) (s : State) : Extends c (c.commit s) where
  uid := rfl
  version := Nat.le_succ _
  past v hv := Function.update_of_ne (by omega) _ _
  clock := le_rfl
  retired _ h := h
  log := List.suffix_rfl

theorem Performs.extends {who : Identity} {r : Request} {c c' : Cluster} {x : Answer r}
    (h : Performs who r c x c') : Extends c c' := by
  cases h with
  | answers x _ _ => exact extends_record c who r _
  | fails e _ => exact extends_record c who r _
  | commits desired _ _ => exact (extends_commit c _).trans (extends_record _ who _ _)

theorem Performs.alive {who : Identity} {r : Request} {c c' : Cluster} {x : Answer r}
    (h : Performs who r c x c') : who ∉ c.retired := by
  cases h <;> assumption

theorem Drifts.extends {c c' : Cluster} (h : Drifts c c') : Extends c c' := by
  cases h with
  | tick t ht => exact ⟨rfl, le_rfl, fun _ _ => rfl, ht, fun _ h => h, List.suffix_rfl⟩
  | retire who =>
    exact ⟨rfl, le_rfl, fun _ _ => rfl, le_rfl, fun _ h => List.mem_cons_of_mem _ h,
      List.suffix_rfl⟩

end Cluster

/-! ## Evidence in the record of a run -/

def Operation.key (op : Operation) : String × Int × Identity := (op.id, op.slot, op.coordinator)

theorem Operation.coordinator_of_key {op op' : Operation} (h : op.key = op'.key) :
    op.coordinator = op'.coordinator :=
  congrArg (·.2.2) h

/-- The pod saved this state and read it back. The record has the newest event
first. -/
def Saved (i : Identity) (s : State) (log : List Event) : Prop :=
  ∃ desired cm, desired.data = s ∧ cm.data = s ∧
    [⟨i, .getState .readback, .ok cm⟩, ⟨i, .putState desired, .ok ()⟩].Sublist log

/-- The pause of the operation was acknowledged to its coordinator, which then
read the runner back as paused. -/
def PauseAcked (op : Operation) (log : List Event) : Prop :=
  ∃ o value, o.key = op.key ∧ runnerOf value = .ok true ∧
    [⟨op.coordinator, .getRunner, .ok value⟩,
      ⟨op.coordinator, .putRunner o true, .ok ()⟩].Sublist log

/-- The pod saw exactly this pod, with its owning Job, retired. -/
def Observed (i ident : Identity) (log : List Event) : Prop :=
  ∃ ns list, ⟨i, .getPods ns, .ok list⟩ ∈ log ∧
    ∃ pod ∈ list.items, podIdentity pod = .ok ident ∧ pod.retired = true

def Reread (i : Identity) (s : State) (log : List Event) : Prop :=
  ∃ cm : ConfigMap, cm.data = s ∧ ⟨i, .getState .again, .ok cm⟩ ∈ log

/-- A reread of some recovery pod found an alert latched. -/
def RereadAlert (log : List Event) : Prop :=
  ∃ i s, Reread i s log ∧ s.phase = .alert

/-- A reread of some recovery pod found an alert latched over an operation that
had been restored. -/
def RereadRestored (log : List Event) : Prop :=
  ∃ i s op, Reread i s log ∧ s.phase = .alert ∧ s.operation = some op ∧ op.restored = true

theorem Saved.mono {i : Identity} {s : State} {log log' : List Event} (h : Saved i s log)
    (hl : log <:+ log') : Saved i s log' := by
  obtain ⟨desired, cm, hd, hc, hsub⟩ := h
  exact ⟨desired, cm, hd, hc, hsub.trans hl.sublist⟩

theorem PauseAcked.mono {op : Operation} {log log' : List Event} (h : PauseAcked op log)
    (hl : log <:+ log') : PauseAcked op log' := by
  obtain ⟨o, value, ho, hv, hsub⟩ := h
  exact ⟨o, value, ho, hv, hsub.trans hl.sublist⟩

theorem PauseAcked.congr {op op' : Operation} {log : List Event} (h : PauseAcked op log)
    (hkey : op.key = op'.key) : PauseAcked op' log := by
  obtain ⟨o, value, ho, hv, hsub⟩ := h
  refine ⟨o, value, ho.trans hkey, hv, ?_⟩
  rw [← Operation.coordinator_of_key hkey]
  exact hsub

theorem Observed.mono {i ident : Identity} {log log' : List Event} (h : Observed i ident log)
    (hl : log <:+ log') : Observed i ident log' := by
  obtain ⟨ns, list, hmem, hpod⟩ := h
  exact ⟨ns, list, hl.subset hmem, hpod⟩

theorem Reread.mono {i : Identity} {s : State} {log log' : List Event} (h : Reread i s log)
    (hl : log <:+ log') : Reread i s log' := by
  obtain ⟨cm, hcm, hmem⟩ := h
  exact ⟨cm, hcm, hl.subset hmem⟩

theorem RereadAlert.mono {log log' : List Event} (h : RereadAlert log) (hl : log <:+ log') :
    RereadAlert log' := by
  obtain ⟨i, s, hread, hphase⟩ := h
  exact ⟨i, s, hread.mono hl, hphase⟩

theorem RereadRestored.mono {log log' : List Event} (h : RereadRestored log) (hl : log <:+ log') :
    RereadRestored log' := by
  obtain ⟨i, s, op, hread, hrest⟩ := h
  exact ⟨i, s, op, hread.mono hl, hrest⟩

/-! ## Commits -/

/-- No claimed worker of the operation can still act. -/
def Operation.WorkerGone (op : Operation) (retired : List Identity) : Prop :=
  op.claimed = true → ∀ w, op.worker = some w → w ∈ retired

/-- The GC slot is free, or its holder has retired and was seen to. -/
def State.GcGone (s : State) (c : Cluster) (i : Identity) : Prop :=
  ∀ g, s.gcHolder = some g → g.identity ∈ c.retired ∧ Observed i g.identity c.log

theorem State.GcGone.mono {s : State} {c c' : Cluster} {i : Identity} (h : s.GcGone c i)
    (hc : c.Extends c') : s.GcGone c' i :=
  fun g hg => ⟨hc.retired (h g hg).1, (h g hg).2.mono hc.log⟩

inductive Commit (sha256 : String → String) (c : Cluster) (i : Identity) (s : State) : State → Prop
  /-- `recover`: the heartbeat. -/
  | beat (t : Int) (ht : 0 ≤ t) (hphase : s.phase ≠ .alert) :
      Commit sha256 c i s { s with heartbeat := t }
  /-- `coordinate`: the durable pause intent of a new operation. -/
  | intend (slot : Int) (hphase : s.phase = .idle ∨ s.phase = .done)
      (hslot : slot % 3600 = 47 * 60) (hold : ∀ old, s.operation = some old → old.slot < slot)
      (hi : i.Valid controlNamespace) :
      Commit sha256 c i s
        { s with operation := some (newOperation sha256 slot i s.policy), phase := .pauseIntent }
  /-- `coordinate`: the acknowledged pause. -/
  | acknowledge (op : Operation) (hop : s.operation = some op) (hphase : s.phase = .pauseIntent)
      (hcoord : op.coordinator = i) (hack : PauseAcked op c.log) :
      Commit sha256 c i s
        { s with phase := .draining, operation := some { op with write := .none } }
  /-- `coordinate`: admission of the worker. -/
  | admission (op : Operation) (w : Identity) (hop : s.operation = some op)
      (hphase : s.phase = .draining) (hcoord : op.coordinator = i)
      (hgc : s.GcGone c i) (hw : w.Valid workerNamespace) :
      Commit sha256 c i s
        { s with
          phase := .admitted
          operation := some { op with worker := some w, outcome := "admitted" }
          gcHolder := none }
  /-- `coordinate`: the drain deadline. -/
  | timeout (op : Operation) (hop : s.operation = some op) (hphase : s.phase = .draining) :
      Commit sha256 c i s
        { s with phase := .closing, operation := some { op with outcome := "drain-timeout" } }
  /-- `WorkerFence.claim`. -/
  | claim (op : Operation) (hop : s.operation = some op) (hphase : s.phase = .admitted)
      (hworker : op.worker = some i) (hgc : s.gcHolder = none) :
      Commit sha256 c i s
        { s with phase := .claimed, operation := some { op with claimed := true } }
  /-- `gc_claim`. -/
  | claimGc (t : Int) (ht : 0 ≤ t) (hphase : s.phase = .idle ∨ s.phase = .done)
      (hgc : s.gcHolder = none) (hi : i.Valid workerNamespace) :
      Commit sha256 c i s { s with gcHolder := some ⟨i, t⟩ }
  /-- `recover`: retirement of the GC slot. -/
  | retireGc (hgc : s.GcGone c i) : Commit sha256 c i s { s with gcHolder := none }
  /-- `recover`: the seal. -/
  | close (op : Operation) (hop : s.operation = some op) (hphase : s.phase ≠ .done)
      (hphase' : s.phase ≠ .restoring) (hread : s.phase = .alert → Reread i s c.log) :
      Commit sha256 c i s { s with phase := .closing }
  /-- `alert`, with nothing but the reason recorded. -/
  | latch (reason : String) (hreason : text reason = true) :
      Commit sha256 c i s
        { s with
          phase := .alert
          operation := s.operation.map (fun op => { op with outcome := reason }) }
  /-- `alert` after a remote write of unknown effect. -/
  | latchUnknown (op : Operation) (reason : String) (hop : s.operation = some op)
      (hreason : text reason = true) (howner : op.coordinator = i ∨ op.holder = some i) :
      Commit sha256 c i s
        { s with
          phase := .alert
          operation := some { op with write := .unknown, outcome := reason } }
  /-- `recover`: the durable restore intent. -/
  | restore (op : Operation) (outcome : String) (hop : s.operation = some op)
      (hphase : s.phase = .closing ∨ s.phase = .alert) (hwrite : op.write = .none)
      (hcoord : op.coordinator ∈ c.retired) (hworker : op.WorkerGone c.retired)
      (hout : text outcome = true) (hi : i.Valid controlNamespace)
      (hread : s.phase = .alert → Reread i s c.log) :
      Commit sha256 c i s
        { s with
          phase := .restoring
          operation := some { op with outcome := outcome, holder := some i, write := .restore } }
  /-- `recover`: the acknowledged restoration. -/
  | finish (op : Operation) (hop : s.operation = some op) (hphase : s.phase = .restoring)
      (hholder : op.holder = some i) :
      Commit sha256 c i s
        { s with phase := .done, operation := some { op with write := .none, restored := true } }

theorem Commit.mono {sha256 : String → String} {c c' : Cluster} {i : Identity} {s s' : State}
    (h : Commit sha256 c i s s') (hc : c.Extends c') : Commit sha256 c' i s s' := by
  cases h with
  | beat t ht hphase => exact .beat t ht hphase
  | intend slot hphase hslot hold hi => exact .intend slot hphase hslot hold hi
  | acknowledge op hop hphase hcoord hack =>
    exact .acknowledge op hop hphase hcoord (hack.mono hc.log)
  | admission op w hop hphase hcoord hgc hw =>
    exact .admission op w hop hphase hcoord (hgc.mono hc) hw
  | timeout op hop hphase => exact .timeout op hop hphase
  | claim op hop hphase hworker hgc => exact .claim op hop hphase hworker hgc
  | claimGc t ht hphase hgc hi => exact .claimGc t ht hphase hgc hi
  | retireGc hgc => exact .retireGc (hgc.mono hc)
  | close op hop hphase hphase' hread =>
    exact .close op hop hphase hphase' (fun h => (hread h).mono hc.log)
  | latch reason hreason => exact .latch reason hreason
  | latchUnknown op reason hop hreason howner => exact .latchUnknown op reason hop hreason howner
  | restore op outcome hop hphase hwrite hcoord hworker hout hi hread =>
    exact .restore op outcome hop hphase hwrite (hc.retired hcoord)
      (fun hcl w hw => hc.retired (hworker hcl w hw)) hout hi (fun h => (hread h).mono hc.log)
  | finish op hop hphase hholder => exact .finish op hop hphase hholder

end ClusterState.Admission
