import ClusterState.Admission.Protocol
import ClusterState.Concurrency.Execution

/-! # Executions

Runs can be computed: a schedule says which pod goes on for how many requests,
what it is answered, when time passes and when a pod retires. Whatever a
schedule leads to is reached by a run. The small cluster at the end is the one
the examples of the statements about runs are taken from.
-/

namespace ClusterState.Admission

open Concurrency Relation

/-- An answer of the surroundings. `plain` is the answer of the cluster itself,
where it has only one; a PUT of the state that comes too late is a conflict. -/
inductive Reply where
  | plain
  | fault (e : Fault)
  | podList (value : PodList)
  | job (value : Job)
  | runner (value : RunnerValue)
  | jobs (value : JobsPage)

def Cluster.truthful (c : Cluster) (items : List Pod) : Bool :=
  items.all (fun pod => !pod.retired || match podIdentity pod with
    | .ok ident => c.retired.contains ident
    | .error _ => true)

def Cluster.answer (c : Cluster) : (r : Request) → Reply → Option (Value r)
  | .getState _, .plain => some c.configMap
  | .getPods _, .podList value => if c.truthful value.items then some value else none
  | .getJob _ _, .job value => some value
  | .getRunner, .runner value => some value
  | .putRunner _ _, .plain => some ()
  | .getJobs _ _, .jobs value => some value
  | .gate, .plain => some ()
  | .now, .plain => some c.clock
  | .note _, .plain => some ()
  | _, _ => none

def Cluster.respond (c : Cluster) (who : Identity) :
    (r : Request) → Reply → Option (Answer r × Cluster)
  | r, .fault e => some (.error e, c.record who r (.error e))
  | .putState desired, .plain =>
    if desired.uid = c.uid ∧ desired.resourceVersion = c.version then
      some (.ok (), (c.commit desired.data).record who (.putState desired) (.ok ()))
    else some (.error .conflict, c.record who (.putState desired) (.error .conflict))
  | r, reply => (c.answer r reply).map (fun x => (.ok x, c.record who r (.ok x)))

inductive Happening where
  | tick (t : ℚ)
  | retire (who : Identity)

def Cluster.happen (c : Cluster) : Happening → Option Cluster
  | .tick t => if c.clock ≤ t then some { c with clock := t } else none
  | .retire who => some { c with retired := who :: c.retired }

/-! ## Executions are runs -/

theorem Cluster.truthful_iff {c : Cluster} {items : List Pod} (h : c.truthful items = true) :
    c.Truthful items := by
  intro pod hpod hret ident hident
  have hall := List.all_eq_true.mp h pod hpod
  simpa [hret, hident] using hall

theorem Cluster.answers_of_answer {c : Cluster} {r : Request} {reply : Reply} {x : Value r}
    (h : c.answer r reply = some x) : c.Answers r x := by
  unfold Cluster.answer at h
  split at h
  case h_2 =>
    split at h
    · rename_i htrue
      cases h
      exact Cluster.truthful_iff htrue
    · cases h
  all_goals cases h
  all_goals trivial

theorem Cluster.performs_of_respond {c c' : Cluster} {who : Identity} {r : Request} {reply : Reply}
    {x : Answer r} (halive : who ∉ c.retired) (h : c.respond who r reply = some (x, c')) :
    c.Performs who r x c' := by
  unfold Cluster.respond at h
  split at h
  · cases h
    exact .fails c r _ halive
  · split at h
    · rename_i hcurrent
      cases h
      exact .commits c _ _ halive hcurrent
    · cases h
      exact .fails c _ _ halive
  · obtain ⟨value, hvalue, heq⟩ := Option.map_eq_some_iff.mp h
    cases heq
    exact .answers c r value halive (Cluster.answers_of_answer hvalue)

theorem Cluster.env_of_happen {c c' : Cluster} {e : Happening} (h : c.happen e = some c') :
    system.env c c' := by
  cases e with
  | tick t =>
    rw [Cluster.happen] at h
    split at h
    · rename_i ht
      cases h
      exact .tick c t ht
    · cases h
  | retire who =>
    cases h
    exact .retire c who

def responder : Responder system Reply Happening where
  respond who r c reply := if who ∈ c.retired then none else c.respond who r reply
  happen e c := c.happen e
  performs_of_respond := by
    intro who r c reply x c' h
    split at h
    · cases h
    · rename_i halive
      exact Cluster.performs_of_respond halive h
  env_of_happen h := Cluster.env_of_happen h

def execute : List (Turn Identity Reply Happening) → Run → Option Run := responder.execute

theorem reachable_of_execute {d : Deployment} {sha256 : String → String} {c : Cluster}
    {turns : List (Turn Identity Reply Happening)} (hboot : Bootstrap sha256 c) {check : Run → Bool}
    (h : (execute turns ⟨d.program sha256 c.uid, c⟩).any check = true) :
    ∃ run, d.Reachable sha256 run ∧ check run = true := by
  obtain ⟨run, hrun, hcheck⟩ := Responder.exists_reaches h
  exact ⟨run, ⟨c, hboot, hrun⟩, hcheck⟩

/-! ## What a record shows -/

/-- The state a reread of a recovery pod answered. -/
def Event.reread : Event → Option State
  | ⟨_, .getState .again, .ok cm⟩ => some cm.data
  | _ => none

theorem Reread.event {i : Identity} {s : State} {log : List Event} (h : Reread i s log) :
    ∃ e ∈ log, e.reread = some s := by
  obtain ⟨cm, rfl, hmem⟩ := h
  exact ⟨_, hmem, rfl⟩

/-- The operation whose pause or restoration the event is. -/
def Event.put (paused : Bool) : Event → Option Operation
  | ⟨_, .putRunner o p, _⟩ => if p = paused then some o else none
  | _ => none

theorem Event.put_eq_some {e : Event} {paused : Bool} {o : Operation} (h : e.put paused = some o) :
    ∃ i x, e = ⟨i, .putRunner o paused, x⟩ := by
  obtain ⟨who, r, x⟩ := e
  cases r with
  | putRunner o' p =>
    by_cases hp : p = paused
    · subst hp
      simp only [Event.put, if_true, Option.some.injEq] at h
      subst h
      exact ⟨who, x, rfl⟩
    · simp [Event.put, hp] at h
  | _ => cases h

theorem not_rereadAlert {log : List Event}
    (h : log.all (fun e => e.reread.all (fun s => s.phase != .alert)) = true) :
    ¬RereadAlert log := by
  rintro ⟨i, s, hread, hphase⟩
  obtain ⟨e, he, hs⟩ := hread.event
  have hall := List.all_eq_true.mp h e he
  simp [hs, hphase] at hall

theorem not_rereadRestored {log : List Event}
    (h : log.all (fun e => e.reread.all (fun s => s.phase != .alert ||
      s.operation.all (fun op => !op.restored))) = true) : ¬RereadRestored log := by
  rintro ⟨i, s, op, hread, hphase, hop, hrestored⟩
  obtain ⟨e, he, hs⟩ := hread.event
  have hall := List.all_eq_true.mp h e he
  simp [hs, hphase, hop, hrestored] at hall

/-! ## A small cluster -/

def Deployment.ofPods (pods : List (Pod × Role)) (policy : String) (fuel : Nat)
    (hpods : ∀ p ∈ pods, (podsOf p.2.ns ⟨[p.1], ""⟩).isOk = true) : Deployment where
  role i := (pods.find? (fun p => match podIdentity p.1 with
    | .ok ident => ident == i
    | .error _ => false)).map (·.2)
  policy _ := policy
  fuel _ := fuel
  self := by
    intro i r hrole
    obtain ⟨p, hfind, rfl⟩ := Option.map_eq_some_iff.mp hrole
    have hok := hpods p (List.mem_of_find?_eq_some hfind)
    obtain ⟨items, hitems⟩ : ∃ items, podsOf p.2.ns ⟨[p.1], ""⟩ = .ok items := by
      cases h : podsOf p.2.ns ⟨[p.1], ""⟩ with
      | ok items => exact ⟨items, rfl⟩
      | error e =>
        rw [h] at hok
        cases hok
    have hident := List.find?_some hfind
    refine ⟨_, items, p.1, hitems, ?_, ?_⟩
    · rw [← (podsOf_eq_ok hitems).1]
      exact List.mem_singleton_self p.1
    · split at hident
      · rename_i ident hok
        rw [hok, beq_iff_eq.mp hident]
      · cases hident

namespace Sample

def policy : String := "hestia-ci-cache-retention-1"

/-- 2026-01-01T00:47:00Z -/
def slot : Int := 1767228420

def coordinator : Identity := ⟨controlNamespace, "admission-1", "p1", "admission", "j1"⟩

def worker : Identity := ⟨workerNamespace, "retention-1", "p2", "retention", "j2"⟩

def recovery (n : Nat) : Identity :=
  ⟨controlNamespace, "recovery-" ++ toString n, "r" ++ toString n, "recovery", "j3"⟩

def gc (n : Nat) : Identity := ⟨workerNamespace, "gc-" ++ toString n, "g" ++ toString n, "gc", "j4"⟩

/-- SHA-256 on the one text that is hashed here, and a permutation of strings. -/
def sha256 : String → String :=
  Equiv.swap (generationText slot coordinator.uid policy)
    "8c7c784d294623d833981e5e7acaca9aa8b85c802c6cc173862989c9bee2c66c"

theorem sha256_injective : Function.Injective sha256 := Equiv.injective _

def template (serviceAccount : String) : PodTemplate := ⟨serviceAccount, [⟨"policy", policy⟩]⟩

def pod (ident : Identity) (app serviceAccount phase : String) : Pod where
  ns := ident.ns
  name := ident.name
  uid := ident.uid
  labels := some [("app", app)]
  ownerReferences := [⟨"Job", ident.job, ident.jobUid, true⟩]
  deletionTimestamp := ""
  nodeName := "hestia"
  template := template serviceAccount
  containers := ["main"]
  initContainers := []
  ephemeralContainers := []
  phase := phase
  containerStatuses := [⟨some "main", phase == "Succeeded"⟩]
  initContainerStatuses := []
  ephemeralContainerStatuses := []

def coordinatorPod : String → Pod :=
  pod coordinator "hestia-ci-maintenance-admission" "hestia-ci-maintenance-admission"

def workerPod : String → Pod :=
  pod worker "hestia-ci-cache-retention" "hestia-ci-maintenance-worker"

def recoveryPod (n : Nat) : String → Pod :=
  pod (recovery n) "hestia-ci-maintenance-recovery" "hestia-ci-maintenance-recovery"

def gcPod (n : Nat) : String → Pod := pod (gc n) "hestia-ci-store-gc" "hestia-ci-store-gc"

def scheduledJob (ident : Identity) (cron serviceAccount : String) : Job where
  ns := ident.ns
  name := ident.job
  uid := ident.jobUid
  deletionTimestamp := ""
  ownerReferences := [⟨"CronJob", cron, "c1", true⟩]
  scheduledTimestamp := some "2026-01-01T00:47:00Z"
  template := template serviceAccount

def deployment : Deployment :=
  .ofPods
    [(coordinatorPod "Running", .coordinator), (workerPod "Running", .worker),
      (recoveryPod 1 "Running", .recovery), (recoveryPod 2 "Running", .recovery),
      (recoveryPod 3 "Running", .recovery), (gcPod 1 "Running", .gc), (gcPod 2 "Running", .gc)]
    policy 3 (by decide)

def start : Cluster where
  uid := "u1"
  version := 0
  past _ := ⟨1, "u1", policy, 2, slot - 40, .idle, none, none⟩
  clock := slot - 30
  retired := []
  log := []

theorem start_bootstrap : Bootstrap sha256 start where
  version := rfl
  valid := ⟨policy, validate_eq_ok.mp (by decide +kernel)⟩
  idle := rfl
  operation := rfl
  clock := by decide +kernel
  log := rfl

theorem reachable {turns : List (Turn Identity Reply Happening)} {check : Run → Bool}
    (h : (execute turns ⟨deployment.program sha256 "u1", start⟩).any check = true) :
    ∃ run, deployment.Reachable sha256 run ∧ check run = true :=
  reachable_of_execute start_bootstrap h

/-! Replies that come up again and again: Pod lists, readings of the runner,
and what a save asks for (its note, the PUT and the confirmation). -/

def pods (items : List Pod) : Reply := .podList ⟨items, ""⟩

def runnerPaused (paused : Bool) : Reply := .runner ⟨some 2, some paused⟩

def saving : List Reply := [.plain, .plain, .plain]

def intending : List Reply :=
  [pods [], pods [coordinatorPod "Running"], pods [],
    .job (scheduledJob coordinator "hestia-ci-maintenance-admission"
      "hestia-ci-maintenance-admission"),
    .plain, .plain, .plain, .plain, runnerPaused false] ++ saving

def beating : List Reply := [.plain, .plain, runnerPaused false, .plain] ++ saving

def claimingGc (n : Nat) : List Reply :=
  [pods [gcPod n "Running"],
    .job { scheduledJob (gc n) "hestia-ci-store-gc" "hestia-ci-store-gc" with
      ownerReferences := [], scheduledTimestamp := none },
    .plain, .plain, .plain] ++ saving ++ [.plain, .plain]

/-- From the pause to the admission of the worker, with a GC slot to retire. -/
def admitting : List Reply :=
  [.plain, runnerPaused true, .plain] ++ saving ++
    [.plain, .plain, pods [], pods [coordinatorPod "Running"],
      pods [gcPod 1 "Succeeded", workerPod "Running"], runnerPaused true] ++
    List.replicate 9 (.jobs ⟨some [], [("X-Next-Page", some "")]⟩) ++
    [.job (scheduledJob worker "hestia-ci-cache-retention" "hestia-ci-maintenance-worker")] ++ saving

def claiming : List Reply := [.plain, .plain, .plain, .plain] ++ saving ++ [.plain, .plain, .plain]

/-- A GC claim, admission and claim of the worker. -/
def untilClaimed : List (Turn Identity Reply Happening) :=
  [.act (gc 1) (claimingGc 1), .happens (.retire (gc 1)), .happens (.tick (slot + 1)),
    .act coordinator (intending ++ admitting), .act worker claiming]

/-- Then both retire, and a recovery pod is about to restore the runner. -/
def untilRestore : List (Turn Identity Reply Happening) :=
  untilClaimed ++ [.happens (.retire coordinator), .happens (.retire worker),
    .act (recovery 1) (beating ++ [.plain, pods [], pods [coordinatorPod "Succeeded"],
      pods [workerPod "Succeeded"], .plain, .plain] ++ saving ++ [.plain] ++ saving)]

/-- The pause fails, and the coordinator is about to latch the alert. -/
def untilAlert : List (Turn Identity Reply Happening) :=
  [.happens (.tick (slot + 1)), .act coordinator (intending ++ [.fault .other, .plain])]

/-- The recovery pod has read the state before the alert and looks again after
it. -/
def alertBroken : List (Turn Identity Reply Happening) :=
  [.happens (.tick (slot + 1)), .act coordinator intending, .act (recovery 1) beating,
    .act coordinator ([.fault .other, .plain] ++ saving),
    .act (recovery 1) ([.plain, pods [], pods [], pods [], .plain] ++ saving)]

/-- The GC slot is taken again between two requests of the first recovery pod,
which then restores the runner with the slot held. The alert over that slot
comes before the deadline of the operation; the third recovery pod looks again
at it and restores the runner a second time. -/
def restoredTwice : List (Turn Identity Reply Happening) :=
  [.act (gc 1) (claimingGc 1), .happens (.retire (gc 1)),
    .act (recovery 1) (beating ++ [.plain, pods [], pods [], pods [gcPod 1 "Succeeded"]] ++ saving),
    .happens (.tick (slot - 10)), .act (gc 2) (claimingGc 2), .happens (.tick (slot + 1)),
    .act coordinator (intending ++ [.plain, runnerPaused true, .plain] ++ saving),
    .happens (.retire coordinator),
    .act (recovery 1) ([.plain, pods [], pods [coordinatorPod "Succeeded"], pods [gcPod 2 "Running"],
      .plain, .plain] ++ saving ++ [.plain] ++ saving ++ [.plain, runnerPaused false, .plain] ++ saving),
    .happens (.retire (recovery 1)), .act (recovery 3) beating, .happens (.tick (slot + 2691)),
    .act (recovery 2) (beating ++ [.plain, pods [], pods [], pods [gcPod 2 "Running"], .plain] ++ saving),
    .happens (.retire (gc 2)),
    .act (recovery 3) ([.plain, pods [], pods [], pods [gcPod 2 "Succeeded"]] ++ saving ++
      [.plain, pods [], pods [coordinatorPod "Succeeded", recoveryPod 1 "Succeeded"], pods [], .plain] ++
      saving ++ [.plain] ++ saving ++ [.plain])]

end Sample

end ClusterState.Admission
