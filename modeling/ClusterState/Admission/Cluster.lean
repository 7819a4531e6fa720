import ClusterState.Admission.Actors

/-! # The cluster the maintenance pods run in

One state ConfigMap updated by compare-and-swap, a clock that never goes back,
and pods that may become terminal at any time. The cluster remembers every
state that was ever committed and every request with its answer, so that
statements about runs are statements about the cluster reached.
-/

namespace ClusterState.Admission

open Concurrency

structure Event where
  who : Identity
  request : Request
  answer : Answer request

structure Cluster where
  /-- Uid of the state object. -/
  uid : String
  /-- Number of commits; the resource version of the current state. -/
  version : Nat
  /-- The state committed as each version. -/
  past : Nat → State
  clock : ℚ
  /-- Pods that are terminal. They stay so and do nothing any more. -/
  retired : List Identity
  /-- Requests answered so far, the newest first. -/
  log : List Event

namespace Cluster

def state (c : Cluster) : State := c.past c.version

def configMap (c : Cluster) : ConfigMap where
  kind := "ConfigMap"
  name := "hestia-ci-maintenance-state"
  ns := "ci-maintenance"
  uid := c.uid
  resourceVersion := c.version
  deletionTimestamp := ""
  data := c.state

def record (c : Cluster) (who : Identity) (r : Request) (x : Answer r) : Cluster :=
  { c with log := ⟨who, r, x⟩ :: c.log }

def commit (c : Cluster) (s : State) : Cluster :=
  { c with version := c.version + 1, past := Function.update c.past (c.version + 1) s }

@[simp] theorem commit_state (c : Cluster) (s : State) : (c.commit s).state = s := by
  simp [state, commit]

@[simp] theorem record_state (c : Cluster) (who : Identity) (r : Request) (x : Answer r) :
    (c.record who r x).state = c.state := rfl

/-- A Pod list the API server may answer: what it reports as retired is. -/
def Truthful (c : Cluster) (items : List Pod) : Prop :=
  ∀ pod ∈ items, pod.retired = true → ∀ ident, podIdentity pod = .ok ident → ident ∈ c.retired

/-- A PUT is built from the current version of the state object. -/
def Current (c : Cluster) (desired : ConfigMap) : Prop :=
  desired.uid = c.uid ∧ desired.resourceVersion = c.version

def Answers (c : Cluster) : (r : Request) → Value r → Prop
  | .getState _, cm => cm = c.configMap
  | .putState _, _ => False
  | .getPods _, list => c.Truthful list.items
  | .getJob _ _, _ => True
  | .getRunner, _ => True
  | .putRunner _ _, _ => True
  | .getJobs _ _, _ => True
  | .gate, _ => True
  | .now, t => t = c.clock
  | .note _, _ => True

/-- What a request of a pod does. A PUT of the state commits at most when it is
built from the current version, whatever its caller gets to see. -/
inductive Performs (who : Identity) : (r : Request) → Cluster → Answer r → Cluster → Prop
  | answers (c : Cluster) (r : Request) (x : Value r) (halive : who ∉ c.retired)
      (hx : c.Answers r x) : Performs who r c (.ok x) (c.record who r (.ok x))
  | fails (c : Cluster) (r : Request) (e : Fault) (halive : who ∉ c.retired) :
      Performs who r c (.error e) (c.record who r (.error e))
  | commits (c : Cluster) (desired : ConfigMap) (x : Answer (.putState desired))
      (halive : who ∉ c.retired) (hcurrent : c.Current desired) :
      Performs who (.putState desired) c x ((c.commit desired.data).record who _ x)

inductive Drifts : Cluster → Cluster → Prop
  | tick (c : Cluster) (t : ℚ) (ht : c.clock ≤ t) : Drifts c { c with clock := t }
  | retire (c : Cluster) (who : Identity) : Drifts c { c with retired := who :: c.retired }

end Cluster

def system : System Identity Request Answer Cluster where
  performs := Cluster.Performs
  env := Cluster.Drifts

/-! ## The pods of a run -/

inductive Role where
  | coordinator | recovery | worker | gc
  deriving DecidableEq, Repr

def Role.ns : Role → String
  | .coordinator | .recovery => controlNamespace
  | .worker | .gc => workerNamespace

/-- `self_identity`: the pod found itself in a checked Pod list of its namespace. -/
def SelfIdentified (ns : String) (me : Identity) : Prop :=
  ∃ value items pod, podsOf ns value = .ok items ∧ pod ∈ items ∧ podIdentity pod = .ok me

/-- Which program each pod runs, once, under its own identity. Pods may have
been started from different policy bundles. -/
structure Deployment where
  role : Identity → Option Role
  policy : Identity → String
  fuel : Identity → Nat
  self : ∀ i r, role i = some r → SelfIdentified r.ns i

def Deployment.program (d : Deployment) (sha256 : String → String) (uid : String)
    (me : Identity) : Api Unit :=
  let store : Store := ⟨d.policy me, uid⟩
  match d.role me with
  | none => .halt
  | some .coordinator => coordinate sha256 store me (d.fuel me)
  | some .recovery => recover sha256 store me
  | some .worker => worker sha256 store me (d.fuel me)
  | some .gc => gc sha256 store me

abbrev Run := Config Identity Request Answer Fault Unit Cluster

/-- The operator's bootstrap: a valid state, idle and without an operation. -/
structure Bootstrap (sha256 : String → String) (c : Cluster) : Prop where
  version : c.version = 0
  valid : ∃ policy, c.state.Valid sha256 c.uid policy
  idle : c.state.phase = .idle
  operation : c.state.operation = none
  clock : 0 ≤ c.clock
  log : c.log = []

def Deployment.Reachable (d : Deployment) (sha256 : String → String) (run : Run) : Prop :=
  ∃ c, Bootstrap sha256 c ∧ system.Reaches ⟨d.program sha256 c.uid, c⟩ run

end ClusterState.Admission
