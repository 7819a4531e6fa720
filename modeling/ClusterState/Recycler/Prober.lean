import ClusterState.Concurrency.Histories
import ClusterState.MountManager.Reconcile
import ClusterState.Recycler.Reconciler

/-! # The prober

Every interval the prober stats the mount points of consumer pods. Those that did
not fail in the sweep before go to its trigger, and what fails in the first sweep
that can read the mount table is taken for granted.
-/

namespace ClusterState.Recycler

open Concurrency

def mountpointOfLine (line : String) : Option String := do
  let (head, tail) ← MountManager.cutSeparator line.toList
  let mountpoint ← (MountManager.fields head)[4]?
  let fstype ← (MountManager.fields tail).head?
  if fstype = "fuse.seaweedfs".toList && kubeletPodsPrefix.toList.isPrefixOf mountpoint then
    some (String.ofList mountpoint)
  else none

def parseMountinfo (s : String) : List String :=
  ((s.toList.splitOn '\n').map String.ofList).filterMap mountpointOfLine

structure Prober where
  /-- Whether `Trigger` is set. -/
  trigger : Bool
  failing : List String
  initialized : Bool

inductive Probe where
  | readMountinfo
  | probe (mountpoint : String)
  /-- Go ranges over the keys of a map in any order. -/
  | range (keys : List String)
  | trigger (mountpoint : String)

@[reducible] def Probe.Value : Probe → Type
  | .readMountinfo => Except String String
  | .probe _ => Except String Unit
  | .range _ => List String
  | .trigger _ => Unit

abbrev Probing := Program Probe Probe.Value String

def probing (q : Probe) : Probing q.Value := .ask q .done

def probeEach : List String → Probing (List String)
  | [] => pure []
  | mp :: rest => do
    match ← probing (.probe mp) with
    | .error _ => do
      let failing ← probeEach rest
      pure (mp :: failing)
    | .ok () => probeEach rest

def observeFailures (p : Prober) (failing : List String) : Probing (List String × Prober) := do
  let current := failing.eraseDups
  if !p.initialized then pure ([], { p with failing := current, initialized := true })
  else
    let keys ← probing (.range current)
    pure (keys.filter (· ∉ p.failing), { p with failing := current })

def triggerEach : List String → Probing Unit
  | [] => pure ()
  | mp :: rest => do
    probing (.trigger mp)
    triggerEach rest

def sweep (p : Prober) : Probing Prober := do
  match ← probing .readMountinfo with
  | .error _ => pure p
  | .ok data =>
    let failing ← probeEach (parseMountinfo data)
    let (newlyFailing, p') ← observeFailures p failing
    if p.trigger then triggerEach newlyFailing
    pure p'

/-! ## What a sweep does -/

structure Sweep where
  mountinfo : Except String String
  probe : String → Except String Unit
  order : List String → List String
  order_perm : ∀ keys, (order keys).Perm keys
  /-- While `HandleProbeFailure` handles a mount point. -/
  reactions : String → Outcomes

namespace Sweep

def reaction (w : Sweep) (r : Reconciler) (mountpoint : String) : List Done :=
  ((w.reactions mountpoint).handle (handleProbeFailure r mountpoint) ⟨∅, ∅, []⟩).calls

/-- The calls of the trigger are collected. -/
def respond (w : Sweep) (r : Reconciler) :
    (q : Probe) → List (String × List Done) → Option (q.Value × List (String × List Done))
  | .readMountinfo, log => some (w.mountinfo, log)
  | .probe mp, log => some (w.probe mp, log)
  | .range keys, log => some (w.order keys, log)
  | .trigger mp, log => some ((), log ++ [(mp, w.reaction r mp)])

/-- The mount points that a sweep finds failing, `none` if it reads no mount table. -/
def failures (w : Sweep) : Option (List String) :=
  w.mountinfo.toOption.map fun data =>
    (parseMountinfo data).filter fun mp => (w.probe mp).toOption.isNone

def next (w : Sweep) (p : Prober) : Prober :=
  match w.failures with
  | none => p
  | some failing => { p with failing := failing.eraseDups, initialized := true }

def triggered (w : Sweep) (p : Prober) : List String :=
  match w.failures with
  | none => []
  | some failing =>
    if p.initialized && p.trigger then (w.order failing.eraseDups).filter (· ∉ p.failing) else []

variable {w : Sweep} {r : Reconciler} {p : Prober} {log : List (String × List Done)}

theorem eval_probeEach (mps : List String) : (probeEach mps).eval (w.respond r) log =
    (some (.ok (mps.filter fun mp => (w.probe mp).toOption.isNone)), log) := by
  induction mps with
  | nil => rfl
  | cons mp rest ih =>
    rw [probeEach]
    change (Program.ask (.probe mp) _).eval (w.respond r) log = _
    rw [Program.eval_ask (show w.respond r (.probe mp) log = some (w.probe mp, log) from rfl),
      List.filter_cons]
    cases w.probe mp with
    | error err =>
      change (probeEach rest >>= _).eval (w.respond r) log = _
      rw [Program.eval_bind_ok ih]
      rfl
    | ok _ => exact ih

theorem eval_triggerEach (mps : List String) : (triggerEach mps).eval (w.respond r) log =
    (some (.ok ()), log ++ mps.map fun mp => (mp, w.reaction r mp)) := by
  induction mps generalizing log with
  | nil => rw [List.map_nil, List.append_nil]; rfl
  | cons mp rest ih =>
    rw [triggerEach]
    change (Program.ask (.trigger mp) _).eval (w.respond r) log = _
    rw [Program.eval_ask rfl]
    change (triggerEach rest).eval (w.respond r) (log ++ [(mp, w.reaction r mp)]) = _
    rw [ih, List.append_assoc]
    rfl

theorem eval_observeFailures (failing : List String) :
    (observeFailures p failing).eval (w.respond r) log =
      (some (.ok (if p.initialized then (w.order failing.eraseDups).filter (· ∉ p.failing) else [],
        { p with failing := failing.eraseDups, initialized := true })), log) := by
  obtain ⟨trigger, previous, initialized⟩ := p
  cases initialized <;> rfl

theorem eval_sweep : (sweep p).eval (w.respond r) log =
    (some (.ok (w.next p)), log ++ (w.triggered p).map fun mp => (mp, w.reaction r mp)) := by
  rw [sweep]
  change (Program.ask .readMountinfo _).eval (w.respond r) log = _
  rw [Program.eval_ask (show w.respond r .readMountinfo log = some (w.mountinfo, log) from rfl),
    next, triggered, failures]
  cases w.mountinfo with
  | error err => exact congrArg (Prod.mk _) (List.append_nil log).symm
  | ok data =>
    change (probeEach (parseMountinfo data) >>= _).eval (w.respond r) log = _
    rw [Program.eval_bind_ok (eval_probeEach _), Program.eval_bind_ok (eval_observeFailures _)]
    cases htrigger : p.trigger with
    | false =>
      rw [Bool.and_false]
      exact congrArg (Prod.mk _) (List.append_nil log).symm
    | true =>
      rw [Bool.and_true]
      exact Program.eval_bind_ok (eval_triggerEach _)

theorem mem_triggered {mp : String} (htrigger : p.trigger = true) : mp ∈ w.triggered p ↔
    p.initialized = true ∧ mp ∉ p.failing ∧ ∃ failing, w.failures = some failing ∧ mp ∈ failing := by
  rw [triggered]
  cases w.failures with
  | none => simp
  | some failing =>
    rw [htrigger, Bool.and_true]
    cases p.initialized with
    | false => simp
    | true =>
      simp only [if_true, List.mem_filter, (w.order_perm _).mem_iff, List.mem_eraseDups,
        decide_eq_true_eq, true_and, Option.some.injEq, exists_eq_left']
      exact and_comm

end Sweep

/-! ## Runs -/

def newProber : Prober := ⟨true, [], false⟩

def probeAll (sweeps : List Sweep) : Prober := sweeps.foldl (fun p w => w.next p) newProber

/-- What the last sweep that read the mount table found. -/
def lastFailures (sweeps : List Sweep) : Option (List String) :=
  (sweeps.filterMap Sweep.failures).getLast?

theorem probeAll_append (sweeps : List Sweep) (w : Sweep) :
    probeAll (sweeps ++ [w]) = w.next (probeAll sweeps) := List.foldl_append

theorem lastFailures_append (sweeps : List Sweep) (w : Sweep) :
    lastFailures (sweeps ++ [w]) = w.failures.or (lastFailures sweeps) :=
  getLast?_filterMap_append _ _ _

theorem probeAll_eq (sweeps : List Sweep) : probeAll sweeps =
    ⟨true, ((lastFailures sweeps).getD []).eraseDups, (lastFailures sweeps).isSome⟩ := by
  induction sweeps using List.reverseRecOn with
  | nil => rfl
  | append_singleton sweeps w ih =>
    rw [probeAll_append, lastFailures_append, ih, Sweep.next]
    cases w.failures <;> rfl

namespace Sweep

def Fails (w : Sweep) (mp : String) : Prop := ∃ failing, w.failures = some failing ∧ mp ∈ failing

def Healthy (w : Sweep) (mp : String) : Prop :=
  ∃ data, w.mountinfo = .ok data ∧ mp ∈ parseMountinfo data ∧ w.probe mp = .ok ()

def Unread (w : Sweep) : Prop := w.failures = none

def Reacts (w : Sweep) (r : Reconciler) (mp : String) : Prop :=
  coldStartSuppressed r (w.reactions mp).now = false ∧ resolvePodUIDFromMountpoint mp ≠ "" ∧
    (w.reactions mp).ListsPod (resolvePodUIDFromMountpoint mp)

/-- `HandleProbeFailure` calls `CycleOne` for the pod of the mount point, in a sweep
that follows on others. -/
def Calls (w : Sweep) (r : Reconciler) (mp : String) (result : Except String Unit)
    (past : List Sweep) : Prop :=
  ∃ calls, (mp, calls) ∈ ((sweep (probeAll past)).eval (w.respond r) []).2 ∧
    ∃ pod, .cycledOne pod result ∈ calls ∧ pod.uid = resolvePodUIDFromMountpoint mp

variable {w : Sweep} {r : Reconciler} {mp : String} {result : Except String Unit}
  {past : List Sweep}

theorem cycledOne_mem_reaction :
    (∃ pod, .cycledOne pod result ∈ w.reaction r mp ∧ pod.uid = resolvePodUIDFromMountpoint mp) ↔
      w.Reacts r mp ∧ (w.reactions mp).cycle = result := by
  rw [reaction, Outcomes.handle_probeFailure, Reacts, Outcomes.ListsPod]
  by_cases hheard : coldStartSuppressed r (w.reactions mp).now = false ∧
      resolvePodUIDFromMountpoint mp ≠ ""
  · simp only [if_pos hheard]
    cases (w.reactions mp).candidates with
    | error err => simp
    | ok candidates =>
      dsimp only
      cases hfind : candidates.find? (fun pod => pod.uid = resolvePodUIDFromMountpoint mp) with
      | none =>
        have hnone : ¬∃ pod ∈ candidates, pod.uid = resolvePodUIDFromMountpoint mp := by
          rintro ⟨pod, hmem, huid⟩
          exact List.find?_eq_none.mp hfind pod hmem (decide_eq_true huid)
        simp [hnone]
      | some pod =>
        have huid : pod.uid = resolvePodUIDFromMountpoint mp := by
          simpa using List.find?_some hfind
        have hlisted : ∃ pod ∈ candidates, pod.uid = resolvePodUIDFromMountpoint mp :=
          ⟨pod, List.mem_of_find?_eq_some hfind, huid⟩
        constructor
        · rintro ⟨pod', hmem, -⟩
          cases List.mem_singleton.mp hmem
          exact ⟨⟨hheard.1, hheard.2, candidates, rfl, hlisted⟩, rfl⟩
        · rintro ⟨-, rfl⟩
          exact ⟨pod, List.mem_singleton.mpr rfl, huid⟩
  · simp only [if_neg hheard]
    refine iff_of_false (fun ⟨_, h, _⟩ => List.not_mem_nil h) fun h => hheard ⟨h.1.1, h.1.2.1⟩

theorem calls_iff : w.Calls r mp result past ↔
    mp ∈ w.triggered (probeAll past) ∧ w.Reacts r mp ∧ (w.reactions mp).cycle = result := by
  rw [Calls, eval_sweep, List.nil_append]
  constructor
  · rintro ⟨calls, hlog, hcycled⟩
    obtain ⟨mp', hmem, heq⟩ := List.mem_map.mp hlog
    cases heq
    exact ⟨hmem, cycledOne_mem_reaction.mp hcycled⟩
  · rintro ⟨hmem, hreacts⟩
    exact ⟨_, List.mem_map.mpr ⟨mp, hmem, rfl⟩, cycledOne_mem_reaction.mpr hreacts⟩

end Sweep

/-- The last sweep that read the mount table found the mount point failing. -/
def FailedLast (sweeps : List Sweep) (mp : String) : Prop :=
  ∃ failing, lastFailures sweeps = some failing ∧ mp ∈ failing

section Failing

variable {sweeps : List Sweep} {w : Sweep} {mp : String}

theorem mem_failing_probeAll : mp ∈ (probeAll sweeps).failing ↔ FailedLast sweeps mp := by
  rw [probeAll_eq, List.mem_eraseDups, FailedLast]
  cases lastFailures sweeps <;> simp

theorem failedLast_append (hw : w.Fails mp) : FailedLast (sweeps ++ [w]) mp := by
  obtain ⟨failing, hfailing, hmem⟩ := hw
  refine ⟨failing, ?_, hmem⟩
  rw [lastFailures_append, hfailing]
  rfl

theorem FailedLast.append_unread (h : FailedLast sweeps mp) (hw : w.Unread) :
    FailedLast (sweeps ++ [w]) mp := by
  rw [FailedLast, lastFailures_append, show w.failures = none from hw]
  exact h

theorem FailedLast.append (h : FailedLast sweeps mp) {between : List Sweep}
    (hbetween : ∀ w ∈ between, w.Fails mp ∨ w.Unread) : FailedLast (sweeps ++ between) mp := by
  induction between using List.reverseRecOn with
  | nil =>
    rw [List.append_nil]
    exact h
  | append_singleton between w ih =>
    rw [← List.append_assoc]
    have hprev := ih fun w' hw' => hbetween w' (List.mem_append_left _ hw')
    rcases hbetween w (List.mem_append_right _ (List.mem_singleton.mpr rfl)) with hfails | hunread
    · exact failedLast_append hfails
    · exact hprev.append_unread hunread

end Failing

/-- A mount point is healthy in the first sweep, and from some sweep on it fails in
every sweep that can read the mount table. Nothing is in the way of the reaction to
the last of them. -/
structure BreaksDown (r : Reconciler) (mp : String) (first : Sweep) (before : List Sweep)
    (onset : Sweep) (later : List Sweep) : Prop where
  healthy : first.Healthy mp
  broken : onset.Fails mp
  fails : ∀ w ∈ later, w.Fails mp ∨ w.Unread
  last : ∃ w, (onset :: later).getLast? = some w ∧ w.Fails mp ∧ w.Reacts r mp ∧
    (w.reactions mp).cycle = .ok ()

namespace BreaksDown

variable {r : Reconciler} {mp : String} {first onset : Sweep} {before later : List Sweep}
  {result : Except String Unit}

theorem initialized (h : BreaksDown r mp first before onset later) :
    (probeAll (first :: before)).initialized = true := by
  obtain ⟨data, hdata, -⟩ := h.healthy
  have hread : first.failures.isSome := by
    rw [Sweep.failures, hdata]
    rfl
  obtain ⟨failing, hfailing⟩ := Option.isSome_iff_exists.mp hread
  rw [probeAll_eq]
  change (lastFailures (first :: before)).isSome = true
  rw [lastFailures, List.filterMap_cons_some hfailing, List.getLast?_isSome]
  exact List.cons_ne_nil _ _

/-- Only at its onset does a breakdown reach the trigger. -/
theorem calls_iff (h : BreaksDown r mp first before onset later) :
    Sometime (fun past w => w.Calls r mp result past) (first :: before) (onset :: later) ↔
      ¬FailedLast (first :: before) mp ∧ onset.Reacts r mp ∧
        (onset.reactions mp).cycle = result := by
  have htrigger : ∀ sweeps, (probeAll sweeps).trigger = true := fun sweeps => by rw [probeAll_eq]
  have honset : onset.Calls r mp result (first :: before) ↔
      ¬FailedLast (first :: before) mp ∧ onset.Reacts r mp ∧
        (onset.reactions mp).cycle = result := by
    rw [Sweep.calls_iff, Sweep.mem_triggered (htrigger _), mem_failing_probeAll]
    exact and_congr_left' ⟨fun hmem => hmem.2.1, fun hlast => ⟨h.initialized, hlast, h.broken⟩⟩
  rw [sometime_cons, honset]
  apply or_iff_left
  rintro ⟨between, w, after, rfl, hcalls⟩
  -- between the onset and this sweep nothing took the mount point from the failing ones
  have hfailed : FailedLast (first :: before ++ [onset] ++ between) mp :=
    (failedLast_append h.broken).append fun w' hw' => h.fails w' (List.mem_append_left _ hw')
  rw [Sweep.calls_iff, Sweep.mem_triggered (htrigger _), mem_failing_probeAll] at hcalls
  exact hcalls.1.2.1 hfailed

end BreaksDown

namespace Sample

def mountpoint : String := "/var/lib/kubelet/pods/u1/volumes/kubernetes.io~csi/pvc-1/mount"

def table : String := "36 35 0:50 / " ++ mountpoint ++ " rw - fuse.seaweedfs weed rw\n"

def reader : Pod := ⟨"db", "db-0", "u1", "node-1", [], [], []⟩

def answering (now : Nat) : Outcomes :=
  ⟨now, .ok (some .fresh), .ok [reader], .ok none, .ok ()⟩

def sweepAt (now : Nat) (probe : Except String Unit) : Sweep :=
  ⟨.ok table, fun _ => probe, id, fun _ => .refl _, fun _ => answering now⟩

def coldStart : Reconciler := ⟨true, true, some ⟨0, 60⟩⟩

theorem parseMountinfo_table : parseMountinfo table = [mountpoint] := by
  decide

theorem sweepAt_healthy (now : Nat) : (sweepAt now (.ok ())).Healthy mountpoint := by
  refine ⟨table, rfl, ?_, rfl⟩
  rw [parseMountinfo_table]
  exact List.mem_singleton.mpr rfl

theorem sweepAt_fails (now : Nat) (err : String) : (sweepAt now (.error err)).Fails mountpoint := by
  refine ⟨_, rfl, ?_⟩
  change mountpoint ∈ (parseMountinfo table).filter fun _ => true
  rw [parseMountinfo_table]
  exact List.mem_singleton.mpr rfl

theorem sweepAt_reacts {now : Nat} (hnow : 60 ≤ now) (probe : Except String Unit) :
    (sweepAt now probe).Reacts coldStart mountpoint := by
  have huid : resolvePodUIDFromMountpoint mountpoint = "u1" := by
    decide
  rw [Sweep.Reacts, huid]
  refine ⟨?_, by decide, [reader], rfl, reader, List.mem_singleton.mpr rfl, rfl⟩
  exact decide_eq_false (Nat.not_lt.mpr hnow)

theorem not_failedLast_healthy (now : Nat) : ¬FailedLast [sweepAt now (.ok ())] mountpoint := by
  rintro ⟨failing, hfailing, hmem⟩
  have hnil : lastFailures [sweepAt now (.ok ())] = some [] := by
    change some ((parseMountinfo table).filter fun _ => false) = some []
    rw [List.filter_false]
  rw [hnil] at hfailing
  cases hfailing
  cases hmem

theorem breaksDown (now : Nat) : BreaksDown coldStart mountpoint (sweepAt 0 (.ok ())) []
    (sweepAt now (.error "stat: timeout")) [sweepAt 100 (.error "stat: timeout")] where
  healthy := sweepAt_healthy 0
  broken := sweepAt_fails now _
  fails w hw := by
    rw [List.mem_singleton.mp hw]
    exact .inl (sweepAt_fails 100 _)
  last := ⟨_, rfl, sweepAt_fails 100 _, sweepAt_reacts (by decide) _, rfl⟩

end Sample

theorem breakdown_cycled_iff {r : Reconciler} {mp : String} {first onset : Sweep}
    {before later : List Sweep} (h : BreaksDown r mp first before onset later) :
    ((∃ result, Sometime (fun past w => w.Calls r mp result past) (first :: before)
        (onset :: later)) ↔
      ¬FailedLast (first :: before) mp ∧ onset.Reacts r mp) ∧
    (Sometime (fun past w => w.Calls r mp (.ok ()) past) (first :: before) (onset :: later) ↔
      ¬FailedLast (first :: before) mp ∧ onset.Reacts r mp ∧
        (onset.reactions mp).cycle = .ok ()) := by
  refine ⟨⟨?_, ?_⟩, h.calls_iff⟩
  · rintro ⟨result, hcalls⟩
    obtain ⟨hlast, hreacts, -⟩ := h.calls_iff.mp hcalls
    exact ⟨hlast, hreacts⟩
  · rintro ⟨hlast, hreacts⟩
    exact ⟨_, h.calls_iff.mpr ⟨hlast, hreacts, rfl⟩⟩

/-- A mount point that breaks after the cold start. -/
theorem breakdown_cycled : Sometime
    (fun past w => w.Calls Sample.coldStart Sample.mountpoint (.ok ()) past)
    [Sample.sweepAt 0 (.ok ())] [Sample.sweepAt 90 (.error "stat: timeout"),
      Sample.sweepAt 100 (.error "stat: timeout")] :=
  (breakdown_cycled_iff (Sample.breaksDown 90)).2.mpr
    ⟨Sample.not_failedLast_healthy 0, Sample.sweepAt_reacts (by decide) _, rfl⟩

/-- A mount point that breaks during the cold start is never cycled. -/
theorem breakdown_forgotten : BreaksDown Sample.coldStart Sample.mountpoint
      (Sample.sweepAt 0 (.ok ())) [] (Sample.sweepAt 30 (.error "stat: timeout"))
      [Sample.sweepAt 100 (.error "stat: timeout")] ∧
    ¬∃ result, Sometime (fun past w => w.Calls Sample.coldStart Sample.mountpoint result past)
      [Sample.sweepAt 0 (.ok ())] [Sample.sweepAt 30 (.error "stat: timeout"),
        Sample.sweepAt 100 (.error "stat: timeout")] := by
  refine ⟨Sample.breaksDown 30, ?_⟩
  rintro ⟨result, hcalls⟩
  obtain ⟨-, hreacts, -⟩ := (Sample.breaksDown 30).calls_iff.mp hcalls
  exact absurd hreacts.1 (by decide)

end ClusterState.Recycler
