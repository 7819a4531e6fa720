import ClusterState.Concurrency.Evaluation
import ClusterState.Recycler.Cycler

/-! # The reconciler of the recycler

The handlers of the two pod informers and of the prober. What they have seen
before is kept in two trackers, and the cold-start window silences them for a
while after the start. A handler returns nothing: what it could not do it logs.
-/

namespace ClusterState.Recycler

open Concurrency

/-! ## Trackers -/

abbrev BaselineTracker := AList (fun _ : String => Int)

abbrev ReadyIdentityTracker := AList (fun _ : String => String)

def observeRestart (b : BaselineTracker) (uid : String) (restartCount : Int) :
    Bool × BaselineTracker :=
  let trackerWasEmpty := b.entries.isEmpty
  (match b.lookup uid with
    | some prev => decide (prev < restartCount)
    | none => !trackerWasEmpty,
    b.insert uid restartCount)

def observeReady (t : ReadyIdentityTracker) (key uid : String) : Bool × ReadyIdentityTracker :=
  (match t.lookup key with
    | some prev => decide (prev ≠ uid)
    | none => false,
    t.insert key uid)

structure ColdStartWindow where
  startedAt : Nat
  grace : Nat

def ColdStartWindow.suppressed (w : ColdStartWindow) (now : Nat) : Bool :=
  decide (now < w.startedAt + w.grace)

/-! ## Handlers -/

structure Reconciler where
  /-- Whether there is a client of the mount service. -/
  mounts : Bool
  volumeReady : Bool
  coldStart : Option ColdStartWindow

def coldStartSuppressed (r : Reconciler) (now : Nat) : Bool :=
  r.coldStart.any fun w => w.suppressed now

def podReady (pod : Pod) : Bool :=
  match pod.conditions.find? (fun condition => condition.type = "Ready") with
  | some condition => condition.status = "True"
  | none => false

inductive StartupMode where
  | fresh
  | takeover
  | crashRecovery
  | legacyBridge
  deriving DecidableEq, Repr

structure RefreshVolumeLocationsFailure where
  volumeID : String
  localSocket : String
  error : String
  deriving DecidableEq, Repr

structure RefreshVolumeLocationsResponse where
  refreshed : List String
  failed : List RefreshVolumeLocationsFailure
  deriving DecidableEq, Repr

inductive Request where
  | now
  | observeRestart (uid : String) (restartCount : Int)
  | observeReady (key uid : String)
  | startupStatus
  | listCandidates
  | refreshVolumeLocations
  | cycleOne (pod : Pod)
  | cycleBatch (candidates : List Pod)
  deriving DecidableEq, Repr

@[reducible] def Request.Value : Request → Type
  | .now => Nat
  | .observeRestart _ _ => Bool
  | .observeReady _ _ => Bool
  | .startupStatus => Except String (Option StartupMode)
  | .listCandidates => Except String (List Pod)
  | .refreshVolumeLocations => Except String (Option RefreshVolumeLocationsResponse)
  | .cycleOne _ => Except String Unit
  | .cycleBatch _ => Unit

abbrev Handler := Program Request Request.Value String

def request (q : Request) : Handler q.Value := .ask q .done

/-- The restart count of the first container named `seaweedfs-mount`. -/
def restartCount (mountPod : Pod) : Int :=
  match mountPod.containerStatuses.find? (fun cs => cs.name = "seaweedfs-mount") with
  | some cs => cs.restartCount
  | none => 0

def suppressCleanTakeoverRestart (r : Reconciler) : Handler Bool := do
  if !r.mounts then pure false
  else
    match ← request .startupStatus with
    | .error _ => pure false
    | .ok none => pure false
    | .ok (some mode) => pure (decide (mode = .takeover))

def handleMountDaemonEvent (r : Reconciler) (mountPod : Pod) : Handler Unit := do
  if !podReady mountPod then pure ()
  else if !(← request (.observeRestart mountPod.uid (restartCount mountPod))) then pure ()
  else if coldStartSuppressed r (← request .now) then pure ()
  else if ← suppressCleanTakeoverRestart r then pure ()
  else
    match ← request .listCandidates with
    | .error _ => pure ()
    | .ok [] => pure ()
    | .ok candidates => request (.cycleBatch candidates)

def handleVolumeServerEvent (r : Reconciler) (volumePod : Pod) : Handler Unit := do
  if !podReady volumePod then pure ()
  else if !r.volumeReady then pure ()
  else if !(← request (.observeReady volumePod.nodeName volumePod.uid)) then pure ()
  else if !r.mounts then pure ()
  else
    let _ ← request .refreshVolumeLocations
    pure ()

def kubeletPodsPrefix : String := "/var/lib/kubelet/pods/"

/-- The segment of the path that follows the prefix, "" if there is none. -/
def resolvePodUIDFromMountpoint (mountpoint : String) : String :=
  match kubeletPodsPrefix.toList.isPrefixOf mountpoint.toList with
  | false => ""
  | true =>
    let rest := mountpoint.toList.drop kubeletPodsPrefix.length
    if '/' ∈ rest then String.ofList (rest.takeWhile (· ≠ '/')) else ""

def handleProbeFailure (r : Reconciler) (mountpoint : String) : Handler Unit := do
  if coldStartSuppressed r (← request .now) then pure ()
  else
    let uid := resolvePodUIDFromMountpoint mountpoint
    if uid = "" then pure ()
    else
      match ← request .listCandidates with
      | .error _ => pure ()
      | .ok candidates =>
        match candidates.find? (fun pod => pod.uid = uid) with
        | none => pure ()
        | some pod =>
          let _ ← request (.cycleOne pod)
          pure ()

/-! ## What the handlers do -/

structure Outcomes where
  now : Nat
  startupStatus : Except String (Option StartupMode)
  candidates : Except String (List Pod)
  refresh : Except String (Option RefreshVolumeLocationsResponse)
  cycle : Except String Unit

inductive Done where
  | cycledOne (pod : Pod) (result : Except String Unit)
  | cycledBatch (candidates : List Pod)
  | refreshed (result : Except String (Option RefreshVolumeLocationsResponse))

structure Watched where
  baseline : BaselineTracker
  ready : ReadyIdentityTracker
  calls : List Done

namespace Outcomes

def respond (o : Outcomes) : (q : Request) → Watched → Option (q.Value × Watched)
  | .now, s => some (o.now, s)
  | .observeRestart uid n, s =>
    some ((observeRestart s.baseline uid n).1,
      { s with baseline := (observeRestart s.baseline uid n).2 })
  | .observeReady key uid, s =>
    some ((observeReady s.ready key uid).1, { s with ready := (observeReady s.ready key uid).2 })
  | .startupStatus, s => some (o.startupStatus, s)
  | .listCandidates, s => some (o.candidates, s)
  | .refreshVolumeLocations, s =>
    some (o.refresh, { s with calls := .refreshed o.refresh :: s.calls })
  | .cycleOne pod, s => some (o.cycle, { s with calls := .cycledOne pod o.cycle :: s.calls })
  | .cycleBatch candidates, s => some ((), { s with calls := .cycledBatch candidates :: s.calls })

def handle (o : Outcomes) (handler : Handler Unit) (s : Watched) : Watched :=
  (handler.eval o.respond { s with calls := [] }).2

/-- The mount daemon says that it took its mounts over. -/
def CleanTakeover (o : Outcomes) (r : Reconciler) : Prop :=
  r.mounts = true ∧ o.startupStatus = .ok (some .takeover)

def ListsCandidates (o : Outcomes) : Prop :=
  ∃ pods, o.candidates = .ok pods ∧ pods ≠ []

def ListsPod (o : Outcomes) (uid : String) : Prop :=
  ∃ pods, o.candidates = .ok pods ∧ ∃ pod ∈ pods, pod.uid = uid

/-- A refresh without a failed mount. -/
def RefreshesAll (o : Outcomes) : Prop :=
  ∃ resp, o.refresh = .ok resp ∧ ∀ response ∈ resp, response.failed = []

variable {o : Outcomes} {r : Reconciler} {s : Watched} {pod : Pod}

theorem eval_request {α : Type} {q : Request} {x : q.Value} {s' : Watched}
    {next : q.Value → Handler α} (h : o.respond q s = some (x, s')) :
    (request q >>= next).eval o.respond s = (next x).eval o.respond s' :=
  Program.eval_ask h

instance : Decidable (o.CleanTakeover r) := by
  unfold CleanTakeover
  infer_instance

theorem eval_suppressCleanTakeoverRestart :
    (suppressCleanTakeoverRestart r).eval o.respond s =
      (some (.ok (decide (o.CleanTakeover r))), s) := by
  unfold suppressCleanTakeoverRestart
  cases hmounts : r.mounts with
  | false =>
    have hclean : ¬o.CleanTakeover r := fun h => by rw [CleanTakeover, hmounts] at h; cases h.1
    rw [decide_eq_false hclean]
    rfl
  | true =>
    change (request .startupStatus >>= _).eval o.respond s = _
    rw [eval_request rfl]
    cases hstatus : o.startupStatus with
    | error err =>
      have hclean : ¬o.CleanTakeover r := fun h => by rw [CleanTakeover, hstatus] at h; cases h.2
      rw [decide_eq_false hclean]
      rfl
    | ok status =>
      cases status with
      | none =>
        have hclean : ¬o.CleanTakeover r := fun h => by rw [CleanTakeover, hstatus] at h; cases h.2
        rw [decide_eq_false hclean]
        rfl
      | some mode =>
        have hclean : o.CleanTakeover r ↔ mode = .takeover := by
          rw [CleanTakeover, hstatus]
          simp [hmounts]
        simp only [hclean]
        rfl

def batch (o : Outcomes) : List Done :=
  match o.candidates with
  | .error _ => []
  | .ok [] => []
  | .ok candidates => [.cycledBatch candidates]

theorem batch_iff : (∃ pods, .cycledBatch pods ∈ o.batch) ↔ o.ListsCandidates := by
  unfold batch ListsCandidates
  cases o.candidates with
  | error err => simp
  | ok candidates => cases candidates <;> simp

theorem refreshed_notMem_batch {c : Prop} [Decidable c]
    {result : Except String (Option RefreshVolumeLocationsResponse)} :
    .refreshed result ∉ if c then o.batch else [] := by
  unfold batch
  cases o.candidates with
  | error err => simp
  | ok candidates => cases candidates <;> simp

/-- A restart that is observed is acted on unless something silences it. -/
theorem handle_mountDaemonEvent (hready : podReady pod = true) :
    o.handle (handleMountDaemonEvent r pod) s =
      { s with
        baseline := (observeRestart s.baseline pod.uid (restartCount pod)).2
        calls := if (observeRestart s.baseline pod.uid (restartCount pod)).1 = true ∧
            coldStartSuppressed r o.now = false ∧ ¬o.CleanTakeover r then o.batch else [] } := by
  rw [handle, handleMountDaemonEvent, hready]
  change ((request (.observeRestart pod.uid (restartCount pod)) >>= _).eval o.respond _).2 = _
  rw [eval_request rfl]
  cases (observeRestart s.baseline pod.uid (restartCount pod)).1 with
  | false => rfl
  | true =>
    change ((request .now >>= _).eval o.respond _).2 = _
    rw [eval_request rfl]
    cases coldStartSuppressed r o.now with
    | true => rfl
    | false =>
      change ((suppressCleanTakeoverRestart r >>= _).eval o.respond _).2 = _
      rw [Program.eval_bind_ok eval_suppressCleanTakeoverRestart]
      by_cases hclean : o.CleanTakeover r
      · simp [hclean]
      · simp only [hclean, decide_false, Bool.false_eq_true, if_false, not_false_eq_true, and_self,
          if_true]
        rw [eval_request rfl, batch]
        cases o.candidates with
        | error err => rfl
        | ok candidates => cases candidates <;> rfl

theorem handle_mountDaemonEvent_unready (hready : podReady pod = false) :
    o.handle (handleMountDaemonEvent r pod) s = { s with calls := [] } := by
  rw [handle, handleMountDaemonEvent, hready]
  rfl

theorem handle_volumeServerEvent (hready : podReady pod = true) (hvolume : r.volumeReady = true) :
    o.handle (handleVolumeServerEvent r pod) s =
      { s with
        ready := (observeReady s.ready pod.nodeName pod.uid).2
        calls := if (observeReady s.ready pod.nodeName pod.uid).1 = true ∧ r.mounts = true then
          [.refreshed o.refresh] else [] } := by
  rw [handle, handleVolumeServerEvent, hready, hvolume]
  change ((request (.observeReady pod.nodeName pod.uid) >>= _).eval o.respond _).2 = _
  rw [eval_request rfl]
  cases (observeReady s.ready pod.nodeName pod.uid).1 with
  | false => rfl
  | true => cases r.mounts <;> rfl

theorem handle_volumeServerEvent_unready (hready : podReady pod = false ∨ r.volumeReady = false) :
    o.handle (handleVolumeServerEvent r pod) s = { s with calls := [] } := by
  rw [handle, handleVolumeServerEvent]
  rcases hready with hready | hvolume
  · rw [hready]
    rfl
  · rw [hvolume]
    cases podReady pod <;> rfl

/-- The mount point of a candidate is cycled unless the cold start silences it. -/
theorem handle_probeFailure {mountpoint : String} :
    o.handle (handleProbeFailure r mountpoint) s =
      { s with
        calls := if coldStartSuppressed r o.now = false ∧ resolvePodUIDFromMountpoint mountpoint ≠ ""
          then match o.candidates with
            | .error _ => []
            | .ok candidates =>
              match candidates.find? (fun pod => pod.uid = resolvePodUIDFromMountpoint mountpoint) with
              | none => []
              | some pod => [.cycledOne pod o.cycle]
          else [] } := by
  rw [handle, handleProbeFailure, eval_request rfl]
  cases coldStartSuppressed r o.now with
  | true => rfl
  | false =>
    by_cases huid : resolvePodUIDFromMountpoint mountpoint = ""
    · simp [huid]
    · simp only [huid, Bool.false_eq_true, if_false, ne_eq, not_false_eq_true, and_self, if_true]
      rw [eval_request rfl]
      cases o.candidates with
      | error err => rfl
      | ok candidates =>
        dsimp only
        cases candidates.find? (fun pod => pod.uid = resolvePodUIDFromMountpoint mountpoint) <;> rfl

end Outcomes

end ClusterState.Recycler
