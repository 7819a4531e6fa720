import ClusterState.Concurrency.RelyGuarantee

/-! # Cycling pods

`Cycler.CycleOne` evicts a pod and deletes it by force when a disruption budget
blocks the eviction for too long, unless the debouncer has seen its UID lately.
`CycleBatch` does so with one candidate after the other. The probing goroutine
and the goroutine of the mount watcher do this at the same time, and the API
server knows a pod by its namespace and name.
-/

namespace ClusterState.Recycler

open Concurrency

structure ContainerStatus where
  name : String
  restartCount : Int
  deriving DecidableEq, Repr

structure PodCondition where
  type : String
  status : String
  deriving DecidableEq, Repr

structure Pod where
  podNamespace : String
  name : String
  uid : String
  nodeName : String
  annotations : List (String × String)
  containerStatuses : List ContainerStatus
  conditions : List PodCondition
  deriving DecidableEq, Repr

/-- Namespace and name. -/
abbrev Key := String × String

def Pod.key (pod : Pod) : Key := (pod.podNamespace, pod.name)

/-! ## Rollout smokes -/

def rolloutSmokeHTTPURLAnnotation : String :=
  "seaweedfs.csi.brmartin.co.uk/rollout-smoke-http-url"

def rolloutSmokeHTTPExpectedStatusesAnnotation : String :=
  "seaweedfs.csi.brmartin.co.uk/rollout-smoke-http-expected-statuses"

def hasGate (pod : Pod) : Bool :=
  pod.annotations.any fun a =>
    a.1 = rolloutSmokeHTTPURLAnnotation || a.1 = rolloutSmokeHTTPExpectedStatusesAnnotation

/-- The cycler, the calls of its goroutines, and how many times its retry loop is
unrolled. -/
structure Cycler where
  stagger : Nat
  evictionDeadline : Nat
  ttl : Nat
  rolloutSmoke : Bool
  calls : Nat → List Pod ⊕ Pod
  rounds : Nat

def Cycler.gated (c : Cycler) (pod : Pod) : Bool := c.rolloutSmoke && hasGate pod

def orderCandidates (c : Cycler) (candidates : List Pod) : List Pod :=
  if c.rolloutSmoke then
    candidates.filter (fun pod => !hasGate pod) ++ candidates.filter hasGate
  else candidates

/-! ## Programs -/

/-- Why an eviction or a deletion failed. One that is `lost` has taken effect, but
the answer of the API server did not arrive. -/
inductive EvictError where
  | tooManyRequests
  | other (err : String)
  | lost (err : String)
  deriving DecidableEq, Repr

def EvictError.text : EvictError → String
  | .tooManyRequests => "too many requests"
  | .other err => err
  | .lost err => err

inductive SmokeError where
  | canceled
  | failed
  deriving DecidableEq, Repr

/-- What a goroutine does. `select`, `settle` and `release` do nothing: the
candidates are there, the first of them is done with, all of them are. -/
inductive Action where
  | select (candidates : List Pod)
  | settle
  | release
  | now
  | skip (uid : String)
  | mark (uid : String)
  | evict (pod : Pod)
  | forceDelete (pod : Pod)
  /-- A `select` on `ctx.Done()` and a timer. -/
  | sleep
  | smokeWait (pod : Pod)
  deriving DecidableEq, Repr

@[reducible] def Action.Value : Action → Type
  | .select _ => Unit
  | .settle => Unit
  | .release => Unit
  | .now => Nat
  | .skip _ => Bool
  | .mark _ => Unit
  | .evict _ => Except EvictError Unit
  | .forceDelete _ => Except EvictError Unit
  | .sleep => Bool
  | .smokeWait _ => Except SmokeError Unit

abbrev Api := Program Action Action.Value String

def act (a : Action) : Api a.Value := .ask a .done

/-- The loop of `CycleOne`. -/
def evictUntil (pod : Pod) (deadline : Nat) : Nat → Api (Except String Unit)
  | 0 => .halt
  | left + 1 => do
    match ← act (.evict pod) with
    | .ok () =>
      act (.mark pod.uid)
      pure (.ok ())
    | .error .tooManyRequests =>
      if deadline < (← act .now) then
        match ← act (.forceDelete pod) with
        | .error err =>
          pure (.error ("force-delete " ++ pod.podNamespace ++ "/" ++ pod.name ++ ": " ++ err.text))
        | .ok () =>
          act (.mark pod.uid)
          pure (.ok ())
      else if ← act .sleep then pure (.error "context canceled")
      else evictUntil pod deadline left
    | .error err =>
      pure (.error ("evict " ++ pod.podNamespace ++ "/" ++ pod.name ++ ": " ++ err.text))

def cycleOne (c : Cycler) (pod : Pod) : Api (Except String Unit) := do
  if ← act (.skip pod.uid) then pure (.ok ())
  else
    let start ← act .now
    evictUntil pod (start + c.evictionDeadline) c.rounds

def cycleThen (c : Cycler) (pod : Pod) (last : Bool) (next : Api Unit) : Api Unit := do
  let _ ← cycleOne c pod
  act .settle
  if !last && 0 < c.stagger then
    if ← act .sleep then pure () else next
  else next

/-- The loop of `CycleBatch` over the ordered candidates. -/
def cycleEach (c : Cycler) : List Pod → Api Unit
  | [] => pure ()
  | pod :: rest => do
    if c.gated pod then
      match ← act (.smokeWait pod) with
      | .error .canceled => pure ()
      | .error .failed =>
        act .settle
        cycleEach c rest
      | .ok () => cycleThen c pod rest.isEmpty (cycleEach c rest)
    else cycleThen c pod rest.isEmpty (cycleEach c rest)

def cycleBatch (c : Cycler) (candidates : List Pod) : Api Unit := do
  let ordered := orderCandidates c candidates
  act (.select ordered)
  cycleEach c ordered
  act .release

/-- A call of `CycleOne` by the prober. -/
def cycleCandidate (c : Cycler) (pod : Pod) : Api Unit := do
  act (.select [pod])
  let _ ← cycleOne c pod
  act .settle
  act .release

def Cycler.program (c : Cycler) (i : Nat) : Api Unit :=
  match c.calls i with
  | .inl candidates => cycleBatch c candidates
  | .inr pod => cycleCandidate c pod

/-! ## The cluster -/

/-- An eviction or deletion that took effect: the UID of the candidate it was
issued for, the UID of the pod it hit, and when. -/
structure Effect where
  wanted : String
  actual : String
  time : Nat
  deriving DecidableEq, Repr

structure State where
  /-- The pods of the API server. -/
  pods : AList (fun _ : Key => String)
  now : Nat
  /-- The map of the debouncer. -/
  marks : AList (fun _ : String => Nat)
  /-- The candidates a goroutine has not done with. -/
  pending : AList (fun _ : Nat => List Pod)
  /-- The UID a goroutine has not skipped and not marked yet. -/
  cycling : AList (fun _ : Nat => String)
  effects : List Effect
  /-- Effects whose answer was lost. -/
  lost : List Effect

namespace State

def pendingOf (s : State) (i : Nat) : List Pod := (s.pending.lookup i).getD []

def cyclingOf (s : State) (i : Nat) : Option String := s.cycling.lookup i

/-- `Debouncer.Skip` -/
def skips (s : State) (c : Cycler) (uid : String) : Bool :=
  match s.marks.lookup uid with
  | none => false
  | some t => !decide (c.ttl ≤ s.now - t)

/-- The API server acts on the pod that has the namespace and name. -/
def strike (s : State) (pod : Pod) (lost : Bool) : State :=
  let effect : Effect := ⟨pod.uid, (s.pods.lookup pod.key).getD "", s.now⟩
  { s with
    effects := effect :: s.effects
    lost := if lost then effect :: s.lost else s.lost }

def Answers (c : Cycler) (s : State) : (a : Action) → a.Value → Prop
  | .now, x => x = s.now
  | .skip uid, x => x = s.skips c uid
  | .evict pod, x => (∃ err, x = .error (.other err)) ∨ x = .error .tooManyRequests ∨
      pod.key ∈ s.pods
  | .forceDelete pod, x => (∃ err, x = .error (.other err)) ∨ x = .error .tooManyRequests ∨
      pod.key ∈ s.pods
  | _, _ => True

def after (i : Nat) : (a : Action) → a.Value → State → State
  | .select candidates, _, s => { s with pending := s.pending.insert i candidates }
  | .settle, _, s =>
    { s with
      pending := s.pending.insert i (s.pendingOf i).tail
      cycling := s.cycling.erase i }
  | .release, _, s => { s with pending := s.pending.erase i }
  | .skip _, true, s => s
  | .skip uid, false, s =>
    { s with marks := s.marks.erase uid, cycling := s.cycling.insert i uid }
  | .mark uid, _, s =>
    { s with marks := s.marks.insert uid s.now, cycling := s.cycling.erase i }
  | .evict pod, .ok (), s => s.strike pod false
  | .evict pod, .error (.lost _), s => s.strike pod true
  | .forceDelete pod, .ok (), s => s.strike pod false
  | .forceDelete pod, .error (.lost _), s => s.strike pod true
  | _, _, s => s

end State

inductive Event where
  | act (i : Nat) (a : Action)
  | create (key : Key) (uid : String)

abbrev Steps := Event → State → Prop

/-- What happens next to the recycler: time passes, pods go and come. -/
inductive State.Proceeds (A : Steps) (s : State) : State → Prop
  | tick (now : Nat) (h : s.now ≤ now) : Proceeds A s { s with now }
  | vanish (key : Key) : Proceeds A s { s with pods := s.pods.erase key }
  | create (key : Key) (uid : String) (hfree : key ∉ s.pods) (hallowed : A (.create key uid) s) :
      Proceeds A s { s with pods := s.pods.insert key uid }

def system (c : Cycler) (A : Steps) : System Nat Action Action.Value State where
  performs i a s x s' := A (.act i a) s ∧ s.Answers c a x ∧ s' = s.after i a x
  env := State.Proceeds A

abbrev Run := Config Nat Action Action.Value String Unit State

def Cycler.start (c : Cycler) (pods : AList (fun _ : Key => String)) : Run :=
  ⟨c.program, ⟨pods, 0, ∅, ∅, ∅, [], []⟩⟩

end ClusterState.Recycler
