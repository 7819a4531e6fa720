import ClusterState.MountManager.Reconcile

/-! # The watcher and the mounts of the new manager

The watcher goes by the mount table and the socket directory alone. It spares a
registered volume only as long as it does not come across its target and socket.
-/

namespace ClusterState.MountManager

open Concurrency

/-- The watcher is not about to unmount the target of a registered volume or to
remove its socket. -/
structure SparesRegistered (run : BridgeRun) : Prop where
  unmounts : ∀ (mp : String) (next : Except String Unit → Sweeper Unit),
    run.procs ⟨⟩ = .ask (.lazyUnmount mp) next →
    ∀ v e, run.shared.service.shared.mountOf v = some e → e.targetPath ≠ mp
  removes : ∀ (p : String) (next : Except String Unit → Sweeper Unit),
    run.procs ⟨⟩ = .ask (.removeSocket p) next →
    ∀ v e, run.shared.service.shared.mountOf v = some e → e.localSocket ≠ p

def BridgeSteps.Meet (A C : BridgeSteps) : Prop := ∀ r s, A r s → C r s

/-- A scan finds nothing of a registered volume, and no volume is registered of
which the sweep under way has found something. -/
def SeparateSweeps : BridgeSteps
  | .sweep .readMountInfo, s => ∀ e ∈ s.service.shared.mounts.entries,
      e.2.targetPath ∉ findSeaweedFuseMounts s.mountInfo
  | .sweep (.readDir socketDir), s => ∀ e ∈ s.service.shared.mounts.entries,
      e.2.localSocket ∉ volumeSockets socketDir s.socketNames
  | .serve (.own (.putMount _ e)), s =>
    e.targetPath ∉ s.foundMounts ∧ e.localSocket ∉ s.foundSockets
  | _, _ => True

def Bridge.Unfound (s : Bridge) : Prop :=
  ∀ v e, s.service.shared.mountOf v = some e →
    e.targetPath ∉ s.foundMounts ∧ e.localSocket ∉ s.foundSockets

namespace Bridge

variable {d : Deployment} {A : BridgeSteps} {s s' : Bridge}

theorem Unfound.step {i : Thread} {r : Request} {x : Answer r} {t t' : State}
    (h : ∀ v e, t.mountOf v = some e → e.targetPath ∉ s.foundMounts ∧ e.localSocket ∉ s.foundSockets)
    (hput : ∀ v e, r = .own (.putMount v e) →
      e.targetPath ∉ s.foundMounts ∧ e.localSocket ∉ s.foundSockets)
    (hperforms : State.Performs d i r t x t') :
    ∀ v e, t'.mountOf v = some e →
      e.targetPath ∉ s.foundMounts ∧ e.localSocket ∉ s.foundSockets := by
  intro v e he
  cases r with
  | get k =>
    obtain ⟨-, rfl⟩ := hperforms
    exact h v e he
  | lock k m =>
    obtain ⟨-, rfl⟩ := hperforms
    exact h v e he
  | unlock k m =>
    obtain rfl := hperforms
    exact h v e he
  | own o =>
    obtain ⟨-, rfl⟩ := hperforms
    rcases mountOf_after (d := d) (i := i) (o := o) (x := x) (s := t) (v := v) with
      hsame | hnone | ⟨e', rfl⟩
    · rw [hsame] at he
      exact h v e he
    · rw [hnone] at he
      cases he
    · have hentry : (t.mounts.insert v e').lookup v = some e := he
      rw [AList.lookup_insert] at hentry
      obtain rfl := Option.some.inj hentry
      exact hput v e' rfl

theorem Unfound.proceeds (h : A.Meet SeparateSweeps → s.Unfound) (hstep : s.Proceeds d A s') :
    (A.Meet SeparateSweeps → s'.Unfound) ∧ s'.foundMounts = s.foundMounts ∧
      s'.foundSockets = s.foundSockets := by
  cases hstep with
  | host mountInfo socketNames => exact ⟨h, rfl, rfl⟩
  | serves run hstep =>
    refine ⟨fun hseparate => ?_, rfl, rfl⟩
    cases hstep with
    | env t henv =>
      obtain ⟨p, w, -, -, rfl⟩ := henv
      exact h hseparate
    | act i r next x t hask hperforms =>
      refine Unfound.step (s := s) (h hseparate) ?_ hperforms.2
      rintro v e rfl
      exact hseparate _ s hperforms.1

theorem Unfound.env (h : A.Meet SeparateSweeps → s.Unfound)
    (henv : Relation.ReflTransGen (Proceeds d A) s s') :
    (A.Meet SeparateSweeps → s'.Unfound) ∧ s'.foundMounts = s.foundMounts ∧
      s'.foundSockets = s.foundSockets := by
  induction henv with
  | refl => exact ⟨h, rfl, rfl⟩
  | tail _ hstep ih =>
    obtain ⟨hunfound, hmounts, hsockets⟩ := ih
    obtain ⟨hunfound', hmounts', hsockets'⟩ := Unfound.proceeds hunfound hstep
    exact ⟨hunfound', hmounts'.trans hmounts, hsockets'.trans hsockets⟩

def Guard : Sweep → Bridge → Prop
  | .lazyUnmount mp, s => mp ∈ s.foundMounts
  | .removeSocket p, s => p ∈ s.foundSockets
  | _, _ => True

theorem Unfound.after {r : Sweep} {x : r.Value} (h : A.Meet SeparateSweeps → s.Unfound)
    (hallowed : A (.sweep r) s) (hx : s.Answers r x) :
    A.Meet SeparateSweeps → (Bridge.after r x s).Unfound := by
  intro hseparate v e he
  have hmem : ∀ v e, s.service.shared.mountOf v = some e →
      ⟨v, e⟩ ∈ s.service.shared.mounts.entries := fun v e he => AList.mem_lookup_iff.mp he
  cases r with
  | readMountInfo =>
    cases x with
    | error err => exact h hseparate v e he
    | ok lines =>
      obtain rfl := hx lines rfl
      exact ⟨hseparate _ s hallowed _ (hmem v e he), (h hseparate v e he).2⟩
  | lazyUnmount mp =>
    obtain ⟨hmounts, hsockets⟩ := h hseparate v e he
    exact ⟨fun hfound => hmounts (List.mem_of_mem_erase hfound), hsockets⟩
  | readDir socketDir =>
    cases x with
    | error err => exact h hseparate v e he
    | ok names =>
      obtain rfl := hx names rfl
      exact ⟨(h hseparate v e he).1, hseparate _ s hallowed _ (hmem v e he)⟩
  | removeSocket p =>
    obtain ⟨hmounts, hsockets⟩ := h hseparate v e he
    exact ⟨hmounts, fun hfound => hsockets (List.mem_of_mem_erase hfound)⟩
  | done => exact h hseparate v e he

def discipline (d : Deployment) (A : BridgeSteps) : Discipline PUnit Sweep Sweep.Value Bridge where
  toSystem := bridge d A
  inv s := A.Meet SeparateSweeps → s.Unfound
  guard _ := Guard
  quiet _ _ := False
  guard_of_quiet _ _ _ hquiet := hquiet.elim
  inv_performs := by
    rintro i r s x s' hinv - ⟨hallowed, hx, rfl⟩
    exact Unfound.after hinv hallowed hx
  inv_env _ _ hinv henv := (Unfound.env hinv henv).1

theorem rely_found (h : (discipline d A).Rely ⟨⟩ s s') :
    s'.foundMounts = s.foundMounts ∧ s'.foundSockets = s.foundSockets := by
  induction h with
  | refl => exact ⟨rfl, rfl⟩
  | tail _ hstep ih =>
    obtain ⟨hinv, henv | ⟨j, r, x, hj, -, -⟩⟩ := hstep
    · obtain ⟨-, hmounts, hsockets⟩ := Unfound.env hinv henv
      exact ⟨hmounts.trans ih.1, hsockets.trans ih.2⟩
    · exact absurd hj (by simp [discipline])

theorem meets_lazyUnmountAll {mounts : List String} (h : s.foundMounts = mounts) :
    (discipline d A).Meets ⟨⟩ (fun _ _ => True) (fun _ _ => True) (lazyUnmountAll mounts) s := by
  induction mounts generalizing s with
  | nil => trivial
  | cons mp mounts ih =>
    intro t hrely _
    have hfound := (rely_found hrely).1.trans h
    refine ⟨?_, fun x t' hperforms => ih ?_⟩
    · change mp ∈ t.foundMounts
      rw [hfound]
      exact List.mem_cons_self
    · obtain ⟨-, -, rfl⟩ := hperforms
      change t.foundMounts.erase mp = mounts
      rw [hfound, List.erase_cons_head]

theorem meets_removeSockets {paths : List String} (h : s.foundSockets = paths) :
    (discipline d A).Meets ⟨⟩ (fun _ _ => True) (fun _ _ => True) (removeSockets paths) s := by
  induction paths generalizing s with
  | nil => trivial
  | cons p paths ih =>
    intro t hrely _
    have hfound := (rely_found hrely).2.trans h
    refine ⟨?_, fun x t' hperforms => ih ?_⟩
    · change p ∈ t.foundSockets
      rw [hfound]
      exact List.mem_cons_self
    · obtain ⟨-, -, rfl⟩ := hperforms
      change t.foundSockets.erase p = paths
      rw [hfound, List.erase_cons_head]

theorem meets_reconcileStaleMounts {socketDir : String} (s : Bridge) :
    (discipline d A).Meets ⟨⟩ (fun _ _ => True) (fun _ _ => True) (reconcileStaleMounts socketDir)
      s := by
  intro t _ _
  refine ⟨trivial, fun x t' hperforms => ?_⟩
  obtain ⟨-, -, rfl⟩ := hperforms
  cases x with
  | error err => trivial
  | ok lines =>
    have hfound : (after .readMountInfo (.ok lines) t).foundMounts = findSeaweedFuseMounts lines :=
      rfl
    refine (meets_lazyUnmountAll hfound).bind fun _ t₁ _ => ?_
    refine Discipline.Meets.bind (Q := fun _ _ => True) ?_ fun _ _ _ => trivial
    intro t₂ _ _
    refine ⟨trivial, fun y t₃ hperforms => ?_⟩
    obtain ⟨-, -, rfl⟩ := hperforms
    cases y with
    | error err => trivial
    | ok names => exact meets_removeSockets rfl

theorem meets_watchStaleMounts {socketDir : String} {sweeps : Nat} (s : Bridge) :
    (discipline d A).Meets ⟨⟩ (fun _ _ => True) (fun _ _ => True)
      (watchStaleMounts socketDir sweeps) s := by
  induction sweeps generalizing s with
  | zero => trivial
  | succ left ih =>
    refine (meets_reconcileStaleMounts s).bind fun _ t _ => ?_
    intro t₁ _ _
    refine ⟨trivial, fun stop t₂ _ => ?_⟩
    cases stop with
    | true => trivial
    | false => exact ih t₂

end Bridge

/-! ## Runs of the bridge -/

def BridgeReachable (d : Deployment) (A : BridgeSteps) (socketDir : String) (run : BridgeRun) :
    Prop :=
  ∃ sweeps mountInfo socketNames,
    (bridge d A).Reaches (bridgeStart d socketDir sweeps mountInfo socketNames) run

theorem watcher_spares_registered {d : Deployment} {socketDir : String} {run : BridgeRun}
    (hrun : BridgeReachable d SeparateSweeps socketDir run) : SparesRegistered run := by
  obtain ⟨sweeps, mountInfo, socketNames, hreach⟩ := hrun
  have hstart : (Bridge.discipline d SeparateSweeps).Sound
      (bridgeStart d socketDir sweeps mountInfo socketNames) := by
    refine ⟨fun _ v e he => ?_, fun _ => Bridge.meets_watchStaleMounts _⟩
    rw [bridgeStart, Deployment.start, State.mountOf, State.initial, AList.lookup_empty] at he
    cases he
  have hsound := hstart.reaches hreach
  have hunfound : run.shared.Unfound := hsound.1 fun _ _ h => h
  constructor
  · rintro mp next hask v e he rfl
    exact (hunfound v e he).1 (hsound.guard hask)
  · rintro p next hask v e he rfl
    exact (hunfound v e he).2 (hsound.guard hask)

/-! ## Carrying the bridge out -/

instance (r : BridgeStep) (s : Bridge) : Decidable (SeparateSweeps r s) := by
  unfold SeparateSweeps
  split <;> infer_instance

def AnyBridgeStep : BridgeSteps := fun _ _ => True

instance (r : BridgeStep) (s : Bridge) : Decidable (AnyBridgeStep r s) := .isTrue trivial

namespace Bridge

def answered (s : Bridge) : (r : Sweep) → r.Value
  | .readMountInfo => .ok s.mountInfo
  | .lazyUnmount _ => .ok ()
  | .readDir _ => .ok s.socketNames
  | .removeSocket _ => .ok ()
  | .done => false

theorem answers_answered (s : Bridge) (r : Sweep) : s.Answers r (s.answered r) := by
  cases r with
  | readMountInfo => exact fun _ h => (Except.ok.inj h).symm
  | readDir socketDir => exact fun _ h => (Except.ok.inj h).symm
  | _ => trivial

variable {d : Deployment} {A : BridgeSteps} {s s' : Bridge}

theorem proceeds_of_reaches
    (hA : ∀ r (s : Bridge) run, A (.serve r) s → A (.serve r) { s with service := run }) {run : Run}
    (h : ((system d).under fun _ r _ => A (.serve r) s).Reaches s.service run) :
    Relation.ReflTransGen (Proceeds d A) s { s with service := run } := by
  induction h with
  | refl => exact .refl
  | @tail run₁ run₂ _ hstep ih =>
    refine ih.tail (Proceeds.serves (s := { s with service := run₁ }) run₂ ?_)
    cases hstep with
    | env t henv => exact .env run₁ t henv
    | act i r next x t hask hperforms =>
      exact .act run₁ i r next x t hask ⟨hA r s run₁ hperforms.1, hperforms.2⟩

inductive Happening where
  | serves (turns : List (Turn Thread Reply ProcessId))
  | host (mountInfo socketNames : List String)

variable [∀ r s, Decidable (A r s)]

def happen (d : Deployment) (A : BridgeSteps) [∀ r s, Decidable (A r s)] :
    Happening → Bridge → Option Bridge
  | .serves turns, s =>
    (((responder d).under fun _ r _ => A (.serve r) s).execute turns s.service).map
      fun run => { s with service := run }
  | .host mountInfo socketNames, s => some { s with mountInfo, socketNames }

def watcher (d : Deployment) (A : BridgeSteps) [∀ r s, Decidable (A r s)]
    (hA : ∀ r (s : Bridge) run, A (.serve r) s → A (.serve r) { s with service := run }) :
    Responder (bridge d A) Unit Happening where
  respond _ r s _ :=
    if A (.sweep r) s then some (s.answered r, Bridge.after r (s.answered r) s) else none
  happen := happen d A
  performs_of_respond := by
    intro i r s y x s' h
    split at h
    · rename_i hallowed
      cases h
      exact ⟨hallowed, s.answers_answered r, rfl⟩
    · cases h
  env_of_happen := by
    intro e s s' h
    cases e with
    | serves turns =>
      obtain ⟨run, hrun, rfl⟩ := Option.map_eq_some_iff.mp h
      exact proceeds_of_reaches hA (Responder.execute_reaches hrun)
    | host mountInfo socketNames =>
      cases h
      exact .single (.host mountInfo socketNames)

end Bridge

theorem separateSweeps_serve (r : Request) (s : Bridge) (run : Run)
    (h : SeparateSweeps (.serve r) s) : SeparateSweeps (.serve r) { s with service := run } := by
  cases r with
  | own o =>
    cases o with
    | putMount v e => exact h
    | _ => trivial
  | _ => trivial

def unmountingPath (run : BridgeRun) : Option String :=
  match run.procs ⟨⟩ with
  | .ask (.lazyUnmount mp) _ => some mp
  | _ => none

theorem unmountingPath_eq_some {run : BridgeRun} {mp : String} (h : unmountingPath run = some mp) :
    ∃ next, run.procs ⟨⟩ = .ask (.lazyUnmount mp) next := by
  unfold unmountingPath at h
  split at h
  · rename_i next hask
    cases h
    exact ⟨next, hask⟩
  · cases h

namespace Sample

def mountLine (mp : String) : String := "36 35 0:50 / " ++ mp ++ " rw - fuse.seaweedfs weed rw"

/-- A volume is mounted at "/t", and the watcher scans the mount table. -/
def bridging (mp : String) : List (Turn PUnit Unit Bridge.Happening) :=
  [.happens (.serves [.act (.request 0) mounting]), .happens (.host [mountLine mp] []),
    .act ⟨⟩ [()]]

end Sample

/-- A volume is registered and the stale mount of another is about to be taken
down. -/
theorem stale_mount_unmounted : ∃ run,
    BridgeReachable Sample.service SeparateSweeps "/sockets" run ∧
    unmountingPath run = some "/stale" ∧ (run.shared.service.shared.mountOf "v").isSome = true ∧
    SparesRegistered run := by
  have hrun : ((Bridge.watcher Sample.service SeparateSweeps separateSweeps_serve).execute
      (Sample.bridging "/stale") (bridgeStart Sample.service "/sockets" 1 [] [])).any (fun run =>
        decide (unmountingPath run = some "/stale" ∧
          (run.shared.service.shared.mountOf "v").isSome = true)) = true := by
    decide
  obtain ⟨run, hreach, hcheck⟩ := Responder.exists_reaches hrun
  obtain ⟨hunmounting, hentry⟩ := of_decide_eq_true hcheck
  have hbridge : BridgeReachable Sample.service SeparateSweeps "/sockets" run := ⟨_, _, _, hreach⟩
  exact ⟨run, hbridge, hunmounting, hentry, watcher_spares_registered hbridge⟩

/-- The watcher comes across the target of a volume that has just been mounted. -/
theorem new_mount_unmounted : ∃ run,
    BridgeReachable Sample.service AnyBridgeStep "/sockets" run ∧ ¬SparesRegistered run := by
  have hrun : ((Bridge.watcher Sample.service AnyBridgeStep fun _ _ _ _ => trivial).execute
      (Sample.bridging "/t") (bridgeStart Sample.service "/sockets" 1 [] [])).any (fun run =>
        decide (unmountingPath run = some "/t" ∧
          (run.shared.service.shared.mountOf "v").map (·.targetPath) = some "/t")) = true := by
    decide
  obtain ⟨run, hreach, hcheck⟩ := Responder.exists_reaches hrun
  obtain ⟨hunmounting, hentry⟩ := of_decide_eq_true hcheck
  obtain ⟨next, hask⟩ := unmountingPath_eq_some hunmounting
  obtain ⟨e, he, htarget⟩ := Option.map_eq_some_iff.mp hentry
  exact ⟨run, ⟨_, _, _, hreach⟩, fun h => h.unmounts "/t" next hask "v" e he htarget⟩

end ClusterState.MountManager
