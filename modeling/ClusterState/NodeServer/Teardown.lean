import ClusterState.MountManager.Execution
import ClusterState.MountManager.Handover
import ClusterState.NodeServer.Unstaging

/-! # Tearing volumes down

`csi-node` cleans up the resources of a volume, and reports it unstaged, only when
the mount service is done with it, unless the volume was rebuilt after a restart,
the error of a delegated unmount is passed over, or a Mount is still under way.
-/

namespace ClusterState.NodeServer.Daemons

open Concurrency

open MountManager (Deployment)

/-- The resources of a volume are only removed when the mount service has
acknowledged an Unmount of it since its last successful Mount, or has no entry
for it. -/
def SparesLiveCache (d : Deployment) (c : Csi.Session) : Prop :=
  ∀ (v path : String) (next : Except String Unit → Csi Unit),
    c.current = .ask (.removeCacheDir v path) next ∨
      c.current = .ask (.removeLocalSocket v path) next →
    acknowledged d v c.shared.replies = true ∨ c.shared.mountOf v = none

/-- Once an unstage has succeeded, and until another Mount of the volume is sent,
the mount service has no entry for it, and a Mount is served as the first one. -/
def LeavesNoMount (driver : Driver) (d : Deployment) (A : Steps) (c : Csi.Session) : Prop :=
  ∀ (req : NodeUnstageVolumeRequest) (next : Unit → Csi Unit),
    c.current = .ask (.reply (.nodeUnstageVolume req) (.ok ())) next →
    ∀ c' : Csi.Session, Relation.ReflTransGen ((node driver d).under A).Step c c' →
      (∀ n ∈ c'.shared.sent, Mounts d req.volumeId n → n ∈ c.shared.sent) →
      c'.shared.mountOf req.volumeId = none ∧
        ∀ (O : MountManager.Outcomes) (m : MountManager.MountRequest), m.volumeID = req.volumeId →
          (MountManager.mountLocked d m).eval (O.respond d) c'.shared.service.shared =
            (MountManager.mountNew d m).eval (O.respond d) c'.shared.service.shared

/-! ## Carrying sessions out -/

instance (d : Deployment) (v : String) (n : Nat) : Decidable (Mounts d v n) :=
  decidable_of_iff
    ((match d.calls n with
      | .mount (some req) => decide (req.volumeID = v)
      | _ => false) = true) (by
    unfold Mounts
    constructor
    · intro h
      split at h
      · rename_i req hcall
        exact ⟨req, hcall, of_decide_eq_true h⟩
      · cases h
    · rintro ⟨req, hcall, hv⟩
      simp [hcall, hv])

instance (d : Deployment) (v : String) (s : Daemons) : Decidable (s.Quiescent d v) :=
  inferInstanceAs (Decidable (∀ n ∈ s.sent, Mounts d v n → _ = true))

instance (d : Deployment) (v : String) (s : Daemons) : Decidable (s.Vacant d v) :=
  inferInstanceAs (Decidable (_ ∧ _))

instance (d : Deployment) (a : Action) (s : Daemons) : Decidable (CarefulUnmounts d a s) := by
  unfold CarefulUnmounts
  split <;> infer_instance

instance (d : Deployment) (a : Action) (s : Daemons) : Decidable (ThoroughUnmounts d a s) := by
  unfold ThoroughUnmounts
  split <;> infer_instance

def AnyStep : Steps := fun _ _ => True

instance (a : Action) (s : Daemons) : Decidable (AnyStep a s) := .isTrue trivial

instance (s : Daemons) (i : MountManager.Thread) : Decidable (s.Live i) :=
  match i with
  | .request n => inferInstanceAs (Decidable (n ∈ s.sent))
  | .waiter _ => .isTrue trivial

instance (r : MountManager.Request) : Decidable (∀ x, r ≠ .own (.reply x)) :=
  match r with
  | .own (.reply x) => .isFalse fun h => h x rfl
  | .get _ | .lock _ _ | .unlock _ _ | .own (.probe _) | .own .takeoverInProgress
  | .own (.setTakeoverInProgress _) | .own .listMounts | .own (.putMount _ _)
  | .own (.removeMount _) | .own (.detachMount _) | .own (.start _) | .own (.terminate _)
  | .own (.setPreserveMountOnExit _ _) | .own (.recordMountFD _ _) | .own (.unmountTarget _)
  | .own (.cmdWait _) | .own (.closeDone _) => .isTrue nofun

/-- An answer of the surroundings. `plain` is success, and what the daemons
themselves know. -/
inductive Reply where
  | plain
  | no
  | fails (err : String)
  | number (n : Nat)

def answered (d : Deployment) (s : Daemons) : (a : Action) → Reply → Option a.Value
  | .node (.load v), .plain => some (s.volumes.lookup v)
  | .node (.isStagingPathHealthy _), .plain => some true
  | .node (.isStagingPathHealthy _), .no => some false
  | .node (.statStale _), .no => some false
  | .node (.newMounter _ _ _), .plain => some (.ok ())
  | .node (.applyMountRootOwnership _ _), .plain => some (.ok ())
  | .node (.applyMountRootOwnershipKernel _ _), .plain => some (.ok ())
  | .node (.getVolumeCapacity _), .fails err => some (.error err)
  | .node (.store _ _), .plain => some ()
  | .node (.delete _), .plain => some ()
  | .node (.removeVolumeMutex _), .plain => some ()
  | .checkMount _, .no => some (.ok false)
  | .buildMountArgs _ _, .plain => some (.ok ["mount"])
  | .send call, .number n => if d.calls n = call ∧ n ∉ s.sent then some (.ok n) else none
  | .await n, .plain => (s.replies.find? (fun y => y.1 = n)).map (·.2)
  | .removePath _, .plain => some (.ok ())
  | .forceUnmount _ _, .plain => some (.ok ())
  | .removeCacheDir _ _, .plain => some (.ok ())
  | .removeLocalSocket _ _, .plain => some (.ok ())
  | .reply _ _, .plain => some ()
  | _, _ => none

theorem answers_of_answered {d : Deployment} {s : Daemons} {a : Action} {y : Reply} {x : a.Value}
    (h : s.answered d a y = some x) : s.Answers d a x := by
  unfold answered at h
  split at h
  case h_14 call n =>
    split at h
    · rename_i hfresh
      cases h
      rintro m hm
      cases hm
      exact hfresh
    · cases h
  case h_15 n =>
    obtain ⟨⟨m, result⟩, hfind, rfl⟩ := Option.map_eq_some_iff.mp h
    obtain rfl : m = n := by simpa using List.find?_some hfind
    exact .inr (List.mem_of_find?_eq_some hfind)
  all_goals cases h
  all_goals first | rfl | trivial

inductive Happening where
  | works (turns : List (Turn MountManager.Thread MountManager.Reply MountManager.ProcessId))
  | replies (n : Nat)

abbrev Working (s : Daemons) (i : MountManager.Thread) (r : MountManager.Request)
    (_ : MountManager.State) : Prop :=
  s.Live i ∧ ∀ x, r ≠ .own (.reply x)

def happen (d : Deployment) : Happening → Daemons → Option Daemons
  | .works turns, s =>
    ((((MountManager.responder d).under s.Working).execute turns s.service).map
      fun run => { s with service := run })
  | .replies n, s =>
    if n ∈ s.sent then
      match s.service.procs (.request n) with
      | .ask (.own (.reply result)) next => some { s with
          service := s.service.resume (.request n) (next ())
            (s.service.shared.after d (.request n) (.reply result) ())
          replies := (n, result) :: s.replies }
      | _ => none
    else none

theorem proceeds_of_reaches {d : Deployment} {s : Daemons} {run : MountManager.Run}
    (h : ((MountManager.system d).under s.Working).Reaches s.service run) :
    Relation.ReflTransGen (Proceeds d) s { s with service := run } := by
  induction h with
  | refl => exact .refl
  | @tail run₁ run₂ _ hstep ih =>
    exact ih.tail (Proceeds.works (s := { s with service := run₁ }) run₂ hstep)

theorem proceeds_of_happen {d : Deployment} {e : Happening} {s s' : Daemons}
    (h : happen d e s = some s') : Relation.ReflTransGen (Proceeds d) s s' := by
  cases e with
  | works turns =>
    obtain ⟨run, hrun, rfl⟩ := Option.map_eq_some_iff.mp h
    exact proceeds_of_reaches (Responder.execute_reaches hrun)
  | replies n =>
    rw [happen] at h
    split at h
    · rename_i hsent
      split at h
      · rename_i result next hask
        cases h
        exact .single (.replies n result next hsent hask)
      · cases h
    · cases h

def responder (driver : Driver) (d : Deployment) :
    Responder (node driver d).system Reply Happening where
  respond _ a s y := (s.answered d a y).map fun x => (x, after a x s)
  happen := happen d
  performs_of_respond := by
    intro i a s y x s' h
    obtain ⟨x', hx', heq⟩ := Option.map_eq_some_iff.mp h
    cases heq
    exact ⟨answers_of_answered hx', rfl⟩
  env_of_happen := proceeds_of_happen

theorem exists_reachable {driver : Driver} {d : Deployment} {A : Steps}
    [∀ a s, Decidable (A a s)] {moves : List (Server.Move Call Reply Happening)}
    {check : Csi.Session → Bool}
    (h : (((node driver d).under A).execute ((responder driver d).under fun _ => A) moves
      ⟨.done ⟨⟩, start d⟩).any check = true) :
    ∃ c, Reachable driver d A c ∧ check c = true := Server.exists_reachable h

/-! ## One volume -/

namespace Sample

def driver : Driver := ⟨fun _ => "/c", fun _ => "/s"⟩

def calls : Nat → MountManager.Call
  | 0 => .mount (some ⟨"v", "/staging", "/c", ["mount"], "/s"⟩)
  | _ => .unmount (some ⟨"v"⟩)

def service : Deployment := ⟨calls, "weed", 1⟩

def staging : Call := .nodeStageVolume ⟨"v", "/staging", some ⟨none, none⟩, ∅⟩

def unstaging : Call := .nodeUnstageVolume ⟨"v", "/staging"⟩

def plain (n : Nat) : List Reply := List.replicate n .plain

def stage : List (Server.Move Call Reply Happening) :=
  [.call staging,
    .act [.plain, .no, .no, .plain, .no, .plain, .number 0],
    .happens (.works [.act (.request 0)
      (MountManager.Sample.plain 4 ++ MountManager.Sample.starting ++ MountManager.Sample.plain 2)]),
    .happens (.replies 0),
    .act (plain 3 ++ [.fails "no capacity"] ++ plain 2)]

/-- After a restart the volume is staged again, from its healthy mount. -/
def restage : List (Server.Move Call Reply Happening) :=
  [.restart, .call staging, .act (plain 4)]

def removing (c : Csi.Session) : Option String :=
  match c.current with
  | .ask (.removeCacheDir v _) _ => some v
  | _ => none

def unstaged (c : Csi.Session) : Option String :=
  match c.current with
  | .ask (.reply (.nodeUnstageVolume req) (.ok _)) _ => some req.volumeId
  | _ => none

def unmount : List (Server.Move Call Reply Happening) :=
  [.call unstaging, .act [.plain, .number 1],
    .happens (.works ([.act (.request 1) (MountManager.Sample.plain 5)] ++
      MountManager.Sample.dying ++ [.act (.waiter 0) (MountManager.Sample.plain 3),
        .act (.request 1) (MountManager.Sample.plain 4)])),
    .happens (.replies 1),
    .act (plain 2)]

theorem unstaged_eq_some {c : Csi.Session} {v : String} (h : unstaged c = some v) :
    ∃ req next, c.current = .ask (.reply (.nodeUnstageVolume req) (.ok ())) next ∧
      req.volumeId = v := by
  unfold unstaged at h
  split at h
  · rename_i req _ next hcurrent
    exact ⟨req, next, hcurrent, Option.some.inj h⟩
  · cases h

theorem removing_eq_some {c : Csi.Session} {v : String} (h : removing c = some v) :
    ∃ path next, c.current = .ask (.removeCacheDir v path) next := by
  unfold removing at h
  split at h
  · rename_i path next hcurrent
    cases h
    exact ⟨path, next, hcurrent⟩
  · cases h

end Sample

/-! ## Cleaning up -/

theorem resources_removed_after_unmount {driver : Driver} {d : Deployment} {c : Csi.Session}
    (hc : Reachable driver d (CarefulUnmounts d) c) : SparesLiveCache d c := by
  intro v path next hremoving
  have hvacant : c.shared.Vacant d v := by
    rcases hremoving with hask | hask
    · exact hc.permitted hask fun _ _ ha => ha
    · exact hc.permitted hask fun _ _ ha => ha
  exact .inr hvacant.1

/-- The resources of a volume whose worker was stopped. -/
theorem resources_removed_after_stop : ∃ c, Reachable Sample.driver Sample.service
    (CarefulUnmounts Sample.service) c ∧ Sample.removing c = some "v" ∧
    SparesLiveCache Sample.service c := by
  have hrun : (((node Sample.driver Sample.service).under (CarefulUnmounts Sample.service)).execute
      ((responder Sample.driver Sample.service).under fun _ => CarefulUnmounts Sample.service)
      (Sample.stage ++ Sample.unmount) ⟨.done ⟨⟩, start Sample.service⟩).any (fun c =>
        decide (Sample.removing c = some "v")) = true := by
    decide
  obtain ⟨c, hreach, hcheck⟩ := exists_reachable hrun
  exact ⟨c, hreach, of_decide_eq_true hcheck, resources_removed_after_unmount hreach⟩

/-- `csi-node` restarts, the volume is staged again and unstaged, and the cache of
its running worker is about to be removed. -/
theorem rebuilt_volume_loses_cache : ∃ c, Reachable Sample.driver Sample.service AnyStep c ∧
    ¬SparesLiveCache Sample.service c := by
  have hrun : (((node Sample.driver Sample.service).under AnyStep).execute
      ((responder Sample.driver Sample.service).under fun _ => AnyStep)
      (Sample.stage ++ Sample.restage ++ [Server.Move.call Sample.unstaging, .act (Sample.plain 2)])
      ⟨.done ⟨⟩, start Sample.service⟩).any (fun c => decide (Sample.removing c = some "v" ∧
        acknowledged Sample.service "v" c.shared.replies = false ∧
        (c.shared.mountOf "v").isSome = true)) = true := by
    decide
  obtain ⟨c, hreach, hcheck⟩ := exists_reachable hrun
  obtain ⟨hremoving, hreplies, hentry⟩ := of_decide_eq_true hcheck
  obtain ⟨path, next, hask⟩ := Sample.removing_eq_some hremoving
  refine ⟨c, hreach, fun h => ?_⟩
  rcases h "v" path next (.inl hask) with hack | hnone
  · rw [hreplies] at hack
    cases hack
  · rw [hnone] at hentry
    cases hentry

/-! ## Unstaging -/

theorem unstaged_volume_not_mounted {driver : Driver} {d : Deployment} {c : Csi.Session}
    (hc : Reachable driver d (ThoroughUnmounts d) c) :
    LeavesNoMount driver d (ThoroughUnmounts d) c := by
  intro req next hask c' hsteps hsent
  have hvacant : c.shared.Vacant d req.volumeId := hc.permitted hask fun _ _ ha => ha
  obtain ⟨hnone, -⟩ := (hvacant.steps hc.sound hsteps hsent).1
  refine ⟨hnone, fun O m hm => ?_⟩
  have hentry : O.observe c'.shared.service.shared (.getMount m.volumeID) = none := by
    rw [hm]
    exact hnone
  rw [MountManager.mountLocked, MountManager.eval_observe_bind (.getMount m.volumeID) nofun hentry]

/-- A volume whose worker was stopped has been unstaged. -/
theorem stopped_volume_unstaged : ∃ c, Reachable Sample.driver Sample.service
    (ThoroughUnmounts Sample.service) c ∧ Sample.unstaged c = some "v" ∧
    LeavesNoMount Sample.driver Sample.service (ThoroughUnmounts Sample.service) c := by
  have hrun : (((node Sample.driver Sample.service).under (ThoroughUnmounts Sample.service)).execute
      ((responder Sample.driver Sample.service).under fun _ => ThoroughUnmounts Sample.service)
      (Sample.stage ++ Sample.unmount ++ [Server.Move.act (Sample.plain 4)])
      ⟨.done ⟨⟩, start Sample.service⟩).any (fun c =>
        decide (Sample.unstaged c = some "v")) = true := by
    decide
  obtain ⟨c, hreach, hcheck⟩ := exists_reachable hrun
  exact ⟨c, hreach, of_decide_eq_true hcheck, unstaged_volume_not_mounted hreach⟩

/-- The volume that was staged again is reported unstaged while its worker runs. -/
theorem rebuilt_volume_stays_mounted : ∃ c, Reachable Sample.driver Sample.service AnyStep c ∧
    ¬LeavesNoMount Sample.driver Sample.service AnyStep c := by
  have hrun : (((node Sample.driver Sample.service).under AnyStep).execute
      ((responder Sample.driver Sample.service).under fun _ => AnyStep)
      (Sample.stage ++ Sample.restage ++ [Server.Move.call Sample.unstaging, .act (Sample.plain 6)])
      ⟨.done ⟨⟩, start Sample.service⟩).any (fun c => decide (Sample.unstaged c = some "v" ∧
        (c.shared.mountOf "v").isSome = true)) = true := by
    decide
  obtain ⟨c, hreach, hcheck⟩ := exists_reachable hrun
  obtain ⟨hunstaged, hentry⟩ := of_decide_eq_true hcheck
  obtain ⟨req, next, hask, hv⟩ := Sample.unstaged_eq_some hunstaged
  refine ⟨c, hreach, fun h => ?_⟩
  have hnone := (h req next hask c .refl fun _ hn _ => hn).1
  rw [hv] at hnone
  rw [hnone] at hentry
  cases hentry

end ClusterState.NodeServer.Daemons
