import ClusterState.Concurrency.Histories
import ClusterState.Recycler.Reconciler

/-! # The pod watches

The informers deliver the pods of the mount daemon and of the volume servers, any
of them any number of times. Each of the two watches handles one pod after the
other, and neither reads what the other one writes.
-/

namespace ClusterState.Recycler

open Concurrency

inductive PodEvent where
  | mountDaemon (pod : Pod) (o : Outcomes)
  | volumeServer (pod : Pod) (o : Outcomes)

namespace PodEvent

def handle (r : Reconciler) : PodEvent → Watched → Watched
  | mountDaemon pod o, s => o.handle (handleMountDaemonEvent r pod) s
  | volumeServer pod o, s => o.handle (handleVolumeServerEvent r pod) s

/-- The restart count that an event shows of a Ready mount daemon pod. -/
def restartCountOf (uid : String) : PodEvent → Option Int
  | mountDaemon pod _ =>
    if podReady pod = true ∧ pod.uid = uid then some (restartCount pod) else none
  | volumeServer _ _ => none

/-- The Ready volume server pod that an event shows on a node. -/
def readyOn (node : String) : PodEvent → Option String
  | mountDaemon _ _ => none
  | volumeServer pod _ =>
    if podReady pod = true ∧ pod.nodeName = node then some pod.uid else none

def observed : PodEvent → Bool
  | mountDaemon pod _ => podReady pod
  | volumeServer _ _ => false

end PodEvent

def watch (r : Reconciler) (events : List PodEvent) : Watched :=
  events.foldl (fun s e => e.handle r s) ⟨∅, ∅, []⟩

theorem watch_append (r : Reconciler) (events : List PodEvent) (e : PodEvent) :
    watch r (events ++ [e]) = e.handle r (watch r events) := List.foldl_append

/-! ## What the trackers know -/

def lastRestartCount (events : List PodEvent) (uid : String) : Option Int :=
  (events.filterMap (PodEvent.restartCountOf uid)).getLast?

def lastReady (events : List PodEvent) (node : String) : Option String :=
  (events.filterMap (PodEvent.readyOn node)).getLast?

section Trackers

variable {r : Reconciler} {events : List PodEvent} {pod : Pod}

theorem baseline_handle_other {e : PodEvent} {s : Watched} (h : e.observed = false) :
    (e.handle r s).baseline = s.baseline := by
  cases e with
  | mountDaemon pod o => rw [PodEvent.handle, Outcomes.handle_mountDaemonEvent_unready h]
  | volumeServer pod o =>
    rw [PodEvent.handle]
    by_cases hready : podReady pod = true ∧ r.volumeReady = true
    · rw [Outcomes.handle_volumeServerEvent hready.1 hready.2]
    · rw [not_and_or] at hready
      rw [Outcomes.handle_volumeServerEvent_unready
        (hready.imp Bool.eq_false_of_not_eq_true Bool.eq_false_of_not_eq_true)]

theorem baseline_watch (uid : String) :
    (watch r events).baseline.lookup uid = lastRestartCount events uid := by
  induction events using List.reverseRecOn with
  | nil => rfl
  | append_singleton events e ih =>
    rw [watch_append, lastRestartCount, getLast?_filterMap_append, ← lastRestartCount, ← ih]
    cases hobserved : e.observed with
    | false =>
      have hcount : e.restartCountOf uid = none := by
        cases e with
        | mountDaemon pod o =>
          refine if_neg fun h => ?_
          rw [PodEvent.observed, h.1] at hobserved
          cases hobserved
        | volumeServer pod o => rfl
      rw [baseline_handle_other hobserved, hcount]
      rfl
    | true =>
      cases e with
      | volumeServer pod o => cases hobserved
      | mountDaemon pod o =>
        rw [PodEvent.handle, Outcomes.handle_mountDaemonEvent hobserved]
        change ((watch r events).baseline.insert pod.uid (restartCount pod)).lookup uid = _
        by_cases huid : uid = pod.uid
        · rw [huid, AList.lookup_insert, PodEvent.restartCountOf, if_pos ⟨hobserved, rfl⟩]
          rfl
        · rw [AList.lookup_insert_ne huid, PodEvent.restartCountOf, if_neg fun h => huid h.2.symm]
          rfl

theorem baseline_watch_isEmpty :
    (watch r events).baseline.entries.isEmpty = !events.any PodEvent.observed := by
  induction events using List.reverseRecOn with
  | nil => rfl
  | append_singleton events e ih =>
    rw [watch_append, List.any_append]
    cases hobserved : e.observed with
    | false =>
      rw [baseline_handle_other hobserved, ih]
      simp [hobserved]
    | true =>
      cases e with
      | volumeServer pod o => cases hobserved
      | mountDaemon pod o =>
        rw [PodEvent.handle, Outcomes.handle_mountDaemonEvent hobserved]
        simp [hobserved, observeRestart]

theorem ready_watch (hvolume : r.volumeReady = true) (node : String) :
    (watch r events).ready.lookup node = lastReady events node := by
  induction events using List.reverseRecOn with
  | nil => rfl
  | append_singleton events e ih =>
    rw [watch_append, lastReady, getLast?_filterMap_append, ← lastReady, ← ih]
    cases e with
    | mountDaemon pod o =>
      rw [PodEvent.handle]
      cases hready : podReady pod with
      | false =>
        rw [Outcomes.handle_mountDaemonEvent_unready hready]
        rfl
      | true =>
        rw [Outcomes.handle_mountDaemonEvent hready]
        rfl
    | volumeServer pod o =>
      rw [PodEvent.handle]
      cases hready : podReady pod with
      | false =>
        rw [Outcomes.handle_volumeServerEvent_unready (.inl hready), PodEvent.readyOn, hready]
        rfl
      | true =>
        rw [Outcomes.handle_volumeServerEvent hready hvolume]
        change ((watch r events).ready.insert pod.nodeName pod.uid).lookup node = _
        by_cases hnode : node = pod.nodeName
        · rw [hnode, AList.lookup_insert, PodEvent.readyOn, if_pos ⟨hready, rfl⟩]
          rfl
        · rw [AList.lookup_insert_ne hnode, PodEvent.readyOn, if_neg fun h => hnode h.2.symm]
          rfl

/-- The mount daemon pod has restarted since it was last seen Ready, or is new. -/
def Restarts (events : List PodEvent) (pod : Pod) : Prop :=
  match lastRestartCount events pod.uid with
  | some prev => prev < restartCount pod
  | none => events.any PodEvent.observed = true

/-- Another volume server pod was last seen Ready on the node. -/
def Replaces (events : List PodEvent) (pod : Pod) : Prop :=
  ∃ prev, lastReady events pod.nodeName = some prev ∧ prev ≠ pod.uid

theorem observeRestart_watch :
    (observeRestart (watch r events).baseline pod.uid (restartCount pod)).1 = true ↔
      Restarts events pod := by
  rw [observeRestart, Restarts, baseline_watch, baseline_watch_isEmpty]
  cases lastRestartCount events pod.uid <;> simp

theorem observeReady_watch (hvolume : r.volumeReady = true) :
    (observeReady (watch r events).ready pod.nodeName pod.uid).1 = true ↔ Replaces events pod := by
  rw [observeReady, Replaces, ready_watch hvolume]
  cases lastReady events pod.nodeName <;> simp

end Trackers

/-! ## Reactions -/

namespace PodEvent

def showsDaemon (uid : String) : PodEvent → Bool
  | mountDaemon pod _ => pod.uid = uid
  | volumeServer _ _ => false

def showsReady (uid : String) : PodEvent → Bool
  | mountDaemon _ _ => false
  | volumeServer pod _ => podReady pod && pod.uid = uid

def CallsBatch (r : Reconciler) (uid : String) (past : List PodEvent) (e : PodEvent) : Prop :=
  e.showsDaemon uid = true ∧ ∃ pods, .cycledBatch pods ∈ (e.handle r (watch r past)).calls

def Refreshes (r : Reconciler) (past : List PodEvent) (e : PodEvent) : Prop :=
  ∃ resp, .refreshed (.ok resp) ∈ (e.handle r (watch r past)).calls ∧
    ∀ response ∈ resp, response.failed = []

/-- A restart of the mount daemon pod, after the cold start and without takeover. -/
def ShowsRestart (r : Reconciler) (past : List PodEvent) : PodEvent → Prop
  | mountDaemon pod o => podReady pod = true ∧ Restarts past pod ∧
      coldStartSuppressed r o.now = false ∧ ¬o.CleanTakeover r
  | volumeServer _ _ => False

def ShowsReplacement (past : List PodEvent) : PodEvent → Prop
  | mountDaemon _ _ => False
  | volumeServer pod _ => podReady pod = true ∧ Replaces past pod

def outcomes : PodEvent → Outcomes
  | mountDaemon _ o => o
  | volumeServer _ o => o

variable {r : Reconciler} {past : List PodEvent} {e : PodEvent} {uid : String}

theorem callsBatch_iff : e.CallsBatch r uid past ↔
    e.showsDaemon uid = true ∧ e.ShowsRestart r past ∧ e.outcomes.ListsCandidates := by
  refine and_congr_right fun hshows => ?_
  cases e with
  | volumeServer pod o => cases hshows
  | mountDaemon pod o =>
    rw [handle, ShowsRestart, outcomes]
    cases hready : podReady pod with
    | false =>
      rw [Outcomes.handle_mountDaemonEvent_unready hready]
      simp
    | true =>
      rw [Outcomes.handle_mountDaemonEvent hready, ← observeRestart_watch (r := r)]
      by_cases hreacts : (observeRestart (watch r past).baseline pod.uid (restartCount pod)).1 = true ∧
          coldStartSuppressed r o.now = false ∧ ¬o.CleanTakeover r
      · simp only [if_pos hreacts, Outcomes.batch_iff]
        exact ⟨fun h => ⟨⟨trivial, hreacts⟩, h⟩, fun h => h.2⟩
      · simp only [if_neg hreacts, true_and, List.not_mem_nil, exists_const, false_iff]
        exact fun h => hreacts h.1

theorem refreshes_iff (hvolume : r.volumeReady = true) (hmounts : r.mounts = true) :
    e.Refreshes r past ↔ e.ShowsReplacement past ∧ e.outcomes.RefreshesAll := by
  cases e with
  | mountDaemon pod o =>
    refine iff_of_false ?_ (fun h => h.1)
    rintro ⟨resp, hcall, -⟩
    rw [handle] at hcall
    cases hready : podReady pod with
    | false =>
      rw [Outcomes.handle_mountDaemonEvent_unready hready] at hcall
      cases hcall
    | true =>
      rw [Outcomes.handle_mountDaemonEvent hready] at hcall
      exact Outcomes.refreshed_notMem_batch hcall
  | volumeServer pod o =>
    rw [Refreshes, handle, ShowsReplacement, outcomes]
    cases hready : podReady pod with
    | false =>
      rw [Outcomes.handle_volumeServerEvent_unready (.inl hready)]
      simp
    | true =>
      rw [Outcomes.handle_volumeServerEvent hready hvolume, ← observeReady_watch hvolume]
      by_cases hreplaces : (observeReady (watch r past).ready pod.nodeName pod.uid).1 = true
      · simp [hreplaces, hmounts, Outcomes.RefreshesAll, eq_comm]
      · simp [hreplaces]

end PodEvent

/-! ## Detected restarts -/

def Outcomes.Succeeds (o : Outcomes) : Prop :=
  (∃ status, o.startupStatus = .ok status) ∧ ∃ pods, o.candidates = .ok pods

/-- After `before` a restart is detected, and the last event of the pod is handled
with all calls succeeding. -/
structure DetectedRestart (r : Reconciler) (before : List PodEvent) (pod : Pod) (o : Outcomes)
    (after : List PodEvent) : Prop where
  restart : (PodEvent.mountDaemon pod o).ShowsRestart r before
  last : ∃ between e rest, .mountDaemon pod o :: after = between ++ e :: rest ∧
    e.showsDaemon pod.uid = true ∧ (∀ e' ∈ rest, e'.showsDaemon pod.uid = false) ∧
    e.outcomes.Succeeds

/-- After `before` a replacement is detected, and the last Ready event of the pod is
handled with a mount service that refreshes all. -/
structure DetectedReplacement (r : Reconciler) (before : List PodEvent) (pod : Pod) (o : Outcomes)
    (after : List PodEvent) : Prop where
  replacement : (PodEvent.volumeServer pod o).ShowsReplacement before
  volumeReady : r.volumeReady = true
  mounts : r.mounts = true
  last : ∃ between e rest, .volumeServer pod o :: after = between ++ e :: rest ∧
    e.showsReady pod.uid = true ∧ (∀ e' ∈ rest, e'.showsReady pod.uid = false) ∧
    e.outcomes.RefreshesAll

namespace Sample

def daemon (restarts : Int) : Pod :=
  ⟨"seaweedfs", "seaweedfs-mount-a", "m1", "node-1", [], [⟨"seaweedfs-mount", restarts⟩],
    [⟨"Ready", "True"⟩]⟩

def volume (uid : String) : Pod :=
  ⟨"seaweedfs", "seaweedfs-volume-0", uid, "node-2", [], [], [⟨"Ready", "True"⟩]⟩

def reconciler : Reconciler := ⟨true, true, some ⟨0, 60⟩⟩

def consumer : Pod := ⟨"db", "db-0", "u1", "node-1", [], [], []⟩

def working : Outcomes :=
  ⟨100, .ok (some .fresh), .ok [consumer], .ok (some ⟨["v"], []⟩), .ok ()⟩

def failing : Outcomes :=
  ⟨100, .ok (some .fresh), .error "list pods: timeout", .error "connection refused", .ok ()⟩

def daemonSeen : List PodEvent := [.mountDaemon (daemon 0) working]

def volumeSeen : List PodEvent := [.volumeServer (volume "w1") working]

theorem restarts_daemon : Restarts daemonSeen (daemon 1) := by
  change (0 : Int) < 1
  decide

theorem replaces_volume : Replaces volumeSeen (volume "w2") :=
  ⟨"w1", rfl, by decide⟩

theorem working_succeeds : working.Succeeds := ⟨⟨_, rfl⟩, ⟨_, rfl⟩⟩

theorem working_refreshesAll : working.RefreshesAll := ⟨_, rfl, by simp⟩

theorem detectedRestart (o : Outcomes) (hnow : o.now = 100)
    (hfresh : o.startupStatus = .ok (some .fresh)) :
    DetectedRestart reconciler daemonSeen (daemon 1) o [.mountDaemon (daemon 1) working] where
  restart := by
    refine ⟨rfl, restarts_daemon, ?_, ?_⟩
    · rw [hnow]
      rfl
    · rw [Outcomes.CleanTakeover, hfresh]
      exact fun h => by cases h.2
  last := ⟨[_], .mountDaemon (daemon 1) working, [], rfl, rfl, nofun, working_succeeds⟩

theorem detectedReplacement (o : Outcomes) :
    DetectedReplacement reconciler volumeSeen (volume "w2") o
      [.volumeServer (volume "w2") working] where
  replacement := ⟨rfl, replaces_volume⟩
  volumeReady := rfl
  mounts := rfl
  last := ⟨[_], .volumeServer (volume "w2") working, [], rfl, rfl, nofun, working_refreshesAll⟩

end Sample

theorem reaction_made_iff (r : Reconciler) :
    (∀ before pod o after, DetectedRestart r before pod o after →
      (Sometime (fun past e => e.CallsBatch r pod.uid past) before (.mountDaemon pod o :: after) ↔
        o.ListsCandidates ∨ Sometime (fun past e => e.showsDaemon pod.uid = true ∧
          e.ShowsRestart r past ∧ e.outcomes.ListsCandidates) (before ++ [.mountDaemon pod o])
          after)) ∧
    ∀ before pod o after, DetectedReplacement r before pod o after →
      (Sometime (fun past e => e.Refreshes r past) before (.volumeServer pod o :: after) ↔
        o.RefreshesAll ∨ Sometime (fun past e => e.ShowsReplacement past ∧
          e.outcomes.RefreshesAll) (before ++ [.volumeServer pod o]) after) := by
  constructor
  · intro before pod o after hdetected
    rw [sometime_cons]
    refine or_congr ?_ (sometime_congr fun _ _ _ => PodEvent.callsBatch_iff)
    rw [PodEvent.callsBatch_iff]
    exact ⟨fun h => h.2.2, fun h => ⟨decide_eq_true rfl, hdetected.restart, h⟩⟩
  · intro before pod o after hdetected
    rw [sometime_cons]
    have hrefreshes : ∀ past (e : PodEvent), e.Refreshes r past ↔
        e.ShowsReplacement past ∧ e.outcomes.RefreshesAll :=
      fun _ _ => PodEvent.refreshes_iff hdetected.volumeReady hdetected.mounts
    refine or_congr ?_ (sometime_congr fun _ _ _ => hrefreshes _ _)
    rw [hrefreshes]
    exact ⟨fun h => h.2, fun h => ⟨hdetected.replacement, h⟩⟩

/-- A reaction that works at once. -/
theorem reaction_made : Sometime (fun past e => e.CallsBatch Sample.reconciler "m1" past)
      Sample.daemonSeen [.mountDaemon (Sample.daemon 1) Sample.working,
        .mountDaemon (Sample.daemon 1) Sample.working] ∧
    Sometime (fun past e => e.Refreshes Sample.reconciler past) Sample.volumeSeen
      [.volumeServer (Sample.volume "w2") Sample.working,
        .volumeServer (Sample.volume "w2") Sample.working] := by
  obtain ⟨hbatch, hrefresh⟩ := reaction_made_iff Sample.reconciler
  refine ⟨(hbatch _ _ _ _ (Sample.detectedRestart Sample.working rfl rfl)).mpr (.inl ?_),
    (hrefresh _ _ _ _ (Sample.detectedReplacement Sample.working)).mpr (.inl ?_)⟩
  · exact ⟨_, rfl, by simp⟩
  · exact Sample.working_refreshesAll

/-- The candidates cannot be listed when the restart is seen, the locations cannot be
refreshed when the replacement is, and the events that follow change nothing. -/
theorem reaction_lost :
    (∃ r before pod o after, DetectedRestart r before pod o after ∧
      ¬Sometime (fun past e => e.CallsBatch r pod.uid past) before (.mountDaemon pod o :: after)) ∧
    ∃ r before pod o after, DetectedReplacement r before pod o after ∧
      ¬Sometime (fun past e => e.Refreshes r past) before (.volumeServer pod o :: after) := by
  refine ⟨⟨Sample.reconciler, Sample.daemonSeen, Sample.daemon 1, Sample.failing, _,
    Sample.detectedRestart Sample.failing rfl rfl, ?_⟩, ⟨Sample.reconciler, Sample.volumeSeen,
    Sample.volume "w2", Sample.failing, _, Sample.detectedReplacement Sample.failing, ?_⟩⟩
  · rw [sometime_cons, sometime_cons]
    rintro (h | h | h)
    · obtain ⟨pods, hpods, -⟩ := (PodEvent.callsBatch_iff.mp h).2.2
      cases hpods
    · obtain ⟨-, hrestarts, -⟩ := (PodEvent.callsBatch_iff.mp h).2.1
      change (1 : Int) < 1 at hrestarts
      omega
    · exact not_sometime_nil h
  · rw [sometime_cons, sometime_cons]
    rintro (h | h | h)
    · obtain ⟨resp, hresp, -⟩ := ((PodEvent.refreshes_iff rfl rfl).mp h).2
      cases hresp
    · obtain ⟨-, prev, hprev, hne⟩ := ((PodEvent.refreshes_iff rfl rfl).mp h).1
      cases hprev
      exact hne rfl
    · exact not_sometime_nil h

end ClusterState.Recycler
