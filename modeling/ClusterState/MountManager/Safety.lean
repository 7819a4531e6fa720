import ClusterState.MountManager.Execution
import ClusterState.NodeServer.Execution

/-! # What holds in every run of the mount service

Exclusion of the requests of one volume (and the same for the node service),
workers that only clean up after themselves, and inventories that stay true. Each
holds in the runs whose steps meet a condition, and fails in some other run.
-/

namespace ClusterState.MountManager

open Concurrency

def AnyStep : Steps := fun _ _ _ => True

instance (i : Thread) (r : Request) (s : State) : Decidable (AnyStep i r s) := .isTrue trivial

/-! ## One request of a volume at a time -/

theorem volume_requests_exclude {d : Deployment} {run : Run}
    {calls : NodeServer.Thread → NodeServer.Call} {node : NodeServer.Run}
    (hrun : d.Reachable FreshGets run) (hnode : NodeServer.Reachable calls NodeServer.FreshGets node) :
    run.shared.locks.Exclusive ∧ node.shared.locks.Exclusive := by
  have hinv := hrun.inv
  constructor
  · exact KeyedLock.exclusive_of_coherent hinv.tidy (hinv.coherent fun _ _ _ hmet => hmet)
  · exact hnode.exclusive

/-- A mount holds its volume while an unmount of it waits, and so does a publish beside an
unstage. -/
theorem mount_excludes_unmount : ∃ run node, Sample.service.Reachable FreshGets run ∧
    run.shared.locks.holding.map LockUse.thread = [.request 0] ∧
    run.shared.locks.waiting.map LockUse.thread = [.request 1] ∧
    NodeServer.Reachable NodeServer.Sample.calls NodeServer.FreshGets node ∧
    node.shared.locks.holding.map LockUse.thread = [1] ∧
    node.shared.locks.waiting.map LockUse.thread = [2] ∧
    run.shared.locks.Exclusive ∧ node.shared.locks.Exclusive := by
  have hrun : (((responder Sample.service).under FreshGets).execute
      [.act (.request 0) (Sample.plain 3), .act (.request 1) (Sample.plain 2)]
      Sample.service.start).any (fun run =>
        decide (run.shared.locks.holding.map LockUse.thread = [.request 0] ∧
          run.shared.locks.waiting.map LockUse.thread = [.request 1])) = true := by
    decide
  have hnode : ((NodeServer.responder.under NodeServer.FreshGets).execute
      NodeServer.Sample.publishHolds (NodeServer.start NodeServer.Sample.calls)).any (fun node =>
        decide (node.shared.locks.holding.map LockUse.thread = [1] ∧
          node.shared.locks.waiting.map LockUse.thread = [2])) = true := by
    decide
  obtain ⟨run, hreach, hcheck⟩ := reachable_of_execute hrun
  obtain ⟨node, hreach', hcheck'⟩ := NodeServer.reachable_of_execute hnode
  obtain ⟨hholding, hwaiting⟩ := of_decide_eq_true hcheck
  obtain ⟨hholding', hwaiting'⟩ := of_decide_eq_true hcheck'
  exact ⟨run, node, hreach, hholding, hwaiting, hreach', hholding', hwaiting',
    volume_requests_exclude hreach hreach'⟩

/-- An unmount and a mount of one volume are both past their locks. -/
theorem unmount_beside_mount : ∃ run, Sample.service.Reachable AnyStep run ∧
    ¬run.shared.locks.Exclusive := by
  have hrun : (((responder Sample.service).under AnyStep).execute Sample.twoMutexes
      Sample.service.start).any (fun run =>
        decide (run.shared.locks.holding = [⟨.request 3, "v", 1⟩, ⟨.request 2, "v", 0⟩])) = true := by
    decide
  obtain ⟨run, hreach, hcheck⟩ := reachable_of_execute hrun
  have hholding := of_decide_eq_true hcheck
  refine ⟨run, hreach, fun hexclusive => ?_⟩
  have hsame := hexclusive ⟨.request 3, "v", 1⟩ (by simp [hholding]) ⟨.request 2, "v", 0⟩
    (by simp [hholding]) rfl
  cases hsame

/-! ## Workers clean up after themselves -/

/-- The goroutines of exited workers remove and unmount only what is their own,
and a worker that a mount returned, that runs and was not asked to stop has its
entry. -/
structure CleansUpOwn (run : Run) : Prop where
  detaches : ∀ (p : ProcessId) (v : String) (next : Unit → Api Unit),
    run.procs (.waiter p) = .ask (.own (.detachMount v)) next →
    ∀ e, run.shared.mountOf v = some e → e.process = p
  unmounts : ∀ (p : ProcessId) (target : String) (next : Except String Unit → Api Unit),
    run.procs (.waiter p) = .ask (.own (.unmountTarget target)) next →
    ∀ (q : ProcessId) (w : Process), q ≠ p → run.shared.processes[q]? = some w →
      w.target = target → w.stage ≠ .running
  registered : ∀ (p : ProcessId) (w : Process), run.shared.processes[p]? = some w →
    w.returned = true → w.stage = .running → w.stopAsked = false →
    ∃ e, run.shared.mountOf w.volumeID = some e ∧ e.process = p

/-- Mutexes are fresh and workers start where nothing is left of others. -/
def OrderlySteps : Steps := fun i r s => FreshGets i r s ∧ CleanStarts i r s

instance (i : Thread) (r : Request) (s : State) : Decidable (OrderlySteps i r s) :=
  inferInstanceAs (Decidable (_ ∧ _))

theorem orderlySteps_orderly : OrderlySteps.Orderly := ⟨fun _ _ _ h => h.1, fun _ _ _ h => h.2⟩

theorem workers_clean_up_own {d : Deployment} {run : Run} (hrun : d.Reachable OrderlySteps run) :
    CleansUpOwn run := by
  have hinv := hrun.inv
  have hregistry := hinv.registry orderlySteps_orderly
  constructor
  · intro p v next hask e he
    obtain ⟨w, hw, hvol, hstage⟩ : run.shared.Has p (fun w => w.volumeID = v ∧ w.stage = .closed) :=
      hrun.permitted hask
    by_contra hne
    have hfinished := hregistry.sole v e he p w hw hvol (fun heq => hne heq.symm)
    rw [hstage] at hfinished
    cases hfinished
  · intro p target next hask q w hne hw htarget hrunning
    obtain ⟨w₀, hw₀, htarget₀, hstage₀⟩ :
        run.shared.Has p (fun w => w.target = target ∧ w.stage = .reaped) :=
      hrun.permitted hask p rfl
    have hdistinct := hregistry.distinct q p w w₀ hw hw₀ hne
      (by rw [hrunning]; exact nofun) (by rw [hstage₀]; exact nofun)
    exact hdistinct.2 (htarget.trans htarget₀.symm)
  · intro p w hw hreturned hrunning hstop
    exact hregistry.kept p w hw (hinv.returned p w hw hreturned) hrunning hstop

/-- A mounted worker that runs. -/
theorem mounted_worker_registered : ∃ run, Sample.service.Reachable OrderlySteps run ∧
    run.shared.processes.map (fun w => (w.returned, w.stage)) = [(true, .running)] ∧
    CleansUpOwn run := by
  have hrun : (((responder Sample.service).under OrderlySteps).execute
      [.act (.request 0) Sample.mounting] Sample.service.start).any (fun run =>
        decide (run.shared.processes.map (fun w => (w.returned, w.stage)) = [(true, .running)])) =
      true := by
    decide
  obtain ⟨run, hreach, hcheck⟩ := reachable_of_execute hrun
  exact ⟨run, hreach, of_decide_eq_true hcheck, workers_clean_up_own hreach⟩

def unmounting : Api Unit → Option String
  | .ask (.own (.unmountTarget target)) _ => some target
  | _ => none

theorem unmounting_eq_some {p : Api Unit} {target : String} (h : unmounting p = some target) :
    ∃ next, p = .ask (.own (.unmountTarget target)) next := by
  unfold unmounting at h
  split at h
  · cases h
    exact ⟨_, rfl⟩
  · cases h

/-- The goroutine of the first worker is about to unmount the target of the
second, which a mount has returned. -/
theorem late_unmount_hits_new_worker : ∃ run, Sample.service.Reachable AnyStep run ∧
    ¬CleansUpOwn run := by
  have hrun : (((responder Sample.service).under AnyStep).execute Sample.lateUnmount
      Sample.service.start).any (fun run =>
        decide (unmounting (run.procs (.waiter 0)) = some "/t" ∧
          run.shared.processes[1]?.map (fun w => (w.target, w.stage)) = some ("/t", .running))) =
      true := by
    decide
  obtain ⟨run, hreach, hcheck⟩ := reachable_of_execute hrun
  obtain ⟨hunmounting, hprocess⟩ := of_decide_eq_true hcheck
  obtain ⟨next, hask⟩ := unmounting_eq_some hunmounting
  obtain ⟨w, hw, hpair⟩ := Option.map_eq_some_iff.mp hprocess
  obtain ⟨htarget, hstage⟩ := Prod.mk.inj hpair
  exact ⟨run, hreach, fun h => h.unmounts 0 "/t" next hask 1 w nofun hw htarget hstage⟩

/-! ## Inventories stay true -/

/-- While an inventory is out, no mount or unmount request is about to add or
remove an entry, and the entries are the listed ones less those that were
finalized or whose worker died. -/
structure InventoryStable (d : Deployment) (run : Run) : Prop where
  untouched : run.shared.windows ≠ [] → ∀ (i : Thread) (o : Operation) (next : o.Value → Api Unit),
    d.client i = true → run.procs i = .ask (.own o) next →
    ∀ v, (∀ e, o ≠ .putMount v e) ∧ o ≠ .removeMount v ∧ o ≠ .detachMount v
  tracks : ∀ w ∈ run.shared.windows, w.Tracks d run.shared

theorem inventory_stays_true {d : Deployment} {run : Run} (hserving : d.Serving)
    (hrun : d.Reachable SettledLists run) : InventoryStable d run := by
  have hinventoried := hrun.inv.inventoried (fun _ _ _ hmet => hmet) hserving
  refine ⟨?_, hinventoried.tracks⟩
  intro hopen i o next hclient hask v
  have hidle : ¬run.shared.Busy d i := by
    rintro ⟨-, hactive⟩
    rw [(hinventoried.closed hopen).2] at hactive
    cases hactive
  have hperm := hrun.permitted hask
  refine ⟨?_, ?_, ?_⟩
  · rintro e rfl
    obtain ⟨-, hby, -⟩ := hperm
    rcases hby with hbusy | ⟨n, mount, fdFile, -, hcall⟩
    · exact hidle hbusy
    · exact hserving n mount fdFile hcall
  · rintro rfl
    obtain ⟨-, hby, -⟩ := hperm
    rcases hby with hbusy | ⟨n, req, rfl, hcall, -⟩
    · exact hidle hbusy
    · rw [Deployment.client, hcall] at hclient
      cases hclient
  · rintro rfl
    cases i with
    | request n => exact hidle hperm.1
    | waiter p => cases hclient

theorem Sample.service_serving : Sample.service.Serving := by
  intro n mount fdFile h
  match n with
  | 0 => cases h
  | 1 => cases h
  | 2 => cases h
  | 3 => cases h
  | n + 4 => cases h

/-- An inventory of one mounted volume. -/
theorem inventory_of_mounted : ∃ run, Sample.service.Reachable SettledLists run ∧
    run.shared.windows.map (fun w => w.listing.map (·.volumeID)) = [["v"]] ∧
    InventoryStable Sample.service run := by
  have hrun : (((responder Sample.service).under SettledLists).execute Sample.listed
      Sample.service.start).any (fun run =>
        decide (run.shared.windows.map (fun w => w.listing.map (·.volumeID)) = [["v"]])) = true := by
    decide +kernel
  obtain ⟨run, hreach, hcheck⟩ := reachable_of_execute hrun
  exact ⟨run, hreach, of_decide_eq_true hcheck,
    inventory_stays_true Sample.service_serving hreach⟩

def registering : Api Unit → Option String
  | .ask (.own (.putMount v _)) _ => some v
  | _ => none

theorem registering_eq_some {p : Api Unit} {v : String} (h : registering p = some v) :
    ∃ e next, p = .ask (.own (.putMount v e)) next := by
  unfold registering at h
  split at h
  · cases h
    exact ⟨_, _, rfl⟩
  · cases h

/-- A mount that was let in before is about to register a volume that the
inventory does not list. -/
theorem mount_registers_after_inventory : ∃ run, Sample.service.Serving ∧
    Sample.service.Reachable AnyStep run ∧ ¬InventoryStable Sample.service run := by
  have hrun : (((responder Sample.service).under AnyStep).execute Sample.lateMount
      Sample.service.start).any (fun run =>
        decide (registering (run.procs (.request 0)) = some "v" ∧
          run.shared.windows.length = 1)) = true := by
    decide
  obtain ⟨run, hreach, hcheck⟩ := reachable_of_execute hrun
  obtain ⟨hregistering, hwindows⟩ := of_decide_eq_true hcheck
  obtain ⟨e, next, hask⟩ := registering_eq_some hregistering
  have hopen : run.shared.windows ≠ [] := by
    intro hnil
    rw [hnil] at hwindows
    cases hwindows
  refine ⟨run, Sample.service_serving, hreach, fun h => ?_⟩
  exact (h.untouched hopen (.request 0) _ next rfl hask "v").1 e rfl

end ClusterState.MountManager
