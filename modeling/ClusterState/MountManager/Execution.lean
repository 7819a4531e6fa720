import ClusterState.Concurrency.Execution
import ClusterState.MountManager.Soundness

/-! # Executions of the mount service

Schedules of small services, carried out. -/

namespace ClusterState.MountManager

open Concurrency

/-- An answer of the surroundings. `plain` is what the manager itself answers,
and success of everything else. -/
inductive Reply where
  | plain
  | no
  | fails (err : String)

def State.observed (s : State) : (q : Probe) → Reply → Option q.Value
  | .getMount v, .plain => some (s.mountOf v)
  | .signal0 p, .plain => some ((s.processes[p]?).any (fun w => w.stage = .running))
  | .kill _, .plain => some ()
  | .awaitDone p, .plain => if (s.processes[p]?).any (fun w => Stage.closed.rank ≤ w.stage.rank)
      then some true else none
  | .awaitDone _, .no => some false
  | .preserveMountOnExit p, .plain => (s.processes[p]?).map (·.preserveMountOnExit)
  | .mountFD p, .plain => some ((s.processes[p]?).bind (·.mountFD))
  | .openFD _ fd, .plain => some (.ok fd)
  | .openFD _ _, .fails err => some (.error err)
  | .discoverMountFD _, .plain => some (.ok 7)
  | .isLikelyNotMountPoint _, .plain => some (.ok true)
  | .isLikelyNotMountPoint _, .no => some (.ok false)
  | .mkdirAll _, .plain => some (.ok ())
  | .removeAll _, .plain => some (.ok ())
  | .stdoutPipe, .plain => some (.ok ())
  | .stderrPipe, .plain => some (.ok ())
  | .prepareHotRestart _, .plain => some (.ok ⟨true, ⟨0, 0, 0, true, true⟩⟩)
  | .sendFileDescriptor _ _, .plain => some (.ok ())
  | _, _ => none

def State.answered (s : State) : (o : Operation) → Reply → Option o.Value
  | .probe q, y => s.observed q y
  | .takeoverInProgress, .plain => some s.takeover
  | .setTakeoverInProgress _, .plain => some ()
  | .listMounts, .plain => some s.listing
  | .putMount _ _, .plain => some ()
  | .removeMount _, .plain => some ()
  | .detachMount _, .plain => some ()
  | .start _, .plain => some (.ok s.processes.length)
  | .terminate _, .plain => some ()
  | .setPreserveMountOnExit _ _, .plain => some ()
  | .recordMountFD _ _, .plain => some ()
  | .unmountTarget _, .plain => some (.ok ())
  | .cmdWait p, .plain => ((s.processes[p]?).filter (fun w => w.stage = .exited)).map
      (fun w => (w.target, w.volumeID))
  | .closeDone _, .plain => some ()
  | .reply _, .plain => some ()
  | _, _ => none

theorem State.observes_of_observed {s : State} {q : Probe} {y : Reply} {x : q.Value}
    (h : s.observed q y = some x) : s.Observes q x := by
  unfold State.observed at h
  split at h
  case h_2 =>
    intro w hw
    rw [hw] at h
    obtain rfl := Option.some.inj h
    refine ⟨fun hrun => by simp [hrun], fun hreaped => ?_⟩
    cases hstage : w.stage <;> simp_all [Stage.rank]
  case h_4 p =>
    intro _
    split at h
    · rename_i hany
      obtain ⟨w, hw, hrank⟩ := (Option.any_eq_true _ _).mp hany
      exact ⟨w, hw, by simpa using hrank⟩
    · cases h
  case h_5 =>
    cases h
    intro hdone
    cases hdone
  case h_6 => exact h
  all_goals cases h
  all_goals first | rfl | trivial

theorem State.answers_of_answered {s : State} {o : Operation} {y : Reply} {x : o.Value}
    (h : s.answered o y = some x) : s.Answers o x := by
  unfold State.answered at h
  split at h
  case h_1 => exact State.observes_of_observed h
  case h_8 =>
    cases h
    intro p hp
    cases hp
    rfl
  case h_13 p =>
    obtain ⟨w, hw, rfl⟩ := Option.map_eq_some_iff.mp h
    obtain ⟨hw, hstage⟩ := Option.filter_eq_some_iff.mp hw
    exact ⟨w, hw, by simpa using hstage, rfl⟩
  all_goals cases h
  all_goals first | rfl | trivial

def State.respond (d : Deployment) (i : Thread) :
    (r : Request) → State → Reply → Option (Answer r × State)
  | .get k, s, .plain => some (s.locks.mutexOf k, { s with locks := s.locks.get i k })
  | .lock k m, s, .plain =>
    if s.locks.locked m = false then some ((), { s with locks := s.locks.lock i k m }) else none
  | .unlock k m, s, .plain => some ((), { s with locks := s.locks.unlock i k m })
  | .own o, s, y => (s.answered o y).map (fun x => (x, s.after d i o x))
  | _, _, _ => none

def State.exit (p : ProcessId) (s : State) : Option State :=
  if (s.processes[p]?).any (fun w => w.stage = .running) then
    some (s.modifyProcess p (fun w => { w with stage := .exited }))
  else none

def responder (d : Deployment) : Responder (system d) Reply ProcessId where
  respond := State.respond d
  happen := State.exit
  performs_of_respond := by
    intro i r s y x s' h
    unfold State.respond at h
    split at h
    · cases h
      exact ⟨rfl, rfl⟩
    · split at h
      · rename_i hfree
        cases h
        exact ⟨hfree, rfl⟩
      · cases h
    · cases h
      rfl
    · obtain ⟨x', hx', heq⟩ := Option.map_eq_some_iff.mp h
      cases heq
      exact ⟨State.answers_of_answered hx', rfl⟩
    · cases h
  env_of_happen := by
    intro p s s' h
    unfold State.exit at h
    split at h
    · rename_i hany
      cases h
      obtain ⟨w, hw, hrun⟩ := (Option.any_eq_true _ _).mp hany
      exact ⟨p, w, hw, by simpa using hrun, rfl⟩
    · cases h

/-! ## Runs under a condition -/

instance (i : Thread) (r : Request) (s : State) : Decidable (FreshGets i r s) :=
  match r with
  | .get k => inferInstanceAs (Decidable (s.locks.FreshGet k))
  | .lock _ _ => .isTrue trivial
  | .unlock _ _ => .isTrue trivial
  | .own _ => .isTrue trivial

instance (i : Thread) (r : Request) (s : State) : Decidable (CleanStarts i r s) := by
  unfold CleanStarts
  split <;> infer_instance

instance (i : Thread) (r : Request) (s : State) : Decidable (SettledLists i r s) := by
  unfold SettledLists
  split <;> infer_instance

theorem reachable_of_execute {d : Deployment} {A : Steps} [∀ i r s, Decidable (A i r s)]
    {turns : List (Turn Thread Reply ProcessId)} {check : Run → Bool}
    (h : (((responder d).under A).execute turns d.start).any check = true) :
    ∃ run, d.Reachable A run ∧ check run = true := Responder.exists_reaches h

namespace Sample

/-- Mounts of one volume, unmounts of it, then an inventory. -/
def calls : Nat → Call
  | 0 => .mount (some ⟨"v", "/t", "/c", ["mount"], "/s"⟩)
  | 1 => .unmount (some ⟨"v"⟩)
  | 2 => .unmount (some ⟨"v"⟩)
  | 3 => .mount (some ⟨"v", "/t", "/c", ["mount"], "/s"⟩)
  | _ => .takeoverInventory (some ())

def service : Deployment := ⟨calls, "weed", 1⟩

def plain (n : Nat) : List Reply := List.replicate n .plain

def starting : List Reply := plain 6 ++ [.no] ++ plain 2

def mounting : List Reply := plain 4 ++ starting ++ plain 3

def dying : List (Turn Thread Reply ProcessId) := [.happens 0, .act (.waiter 0) (plain 2)]

/-- A third request waits for the mutex that the second deletes, and the fourth
gets a new one. -/
def twoMutexes : List (Turn Thread Reply ProcessId) :=
  [.act (.request 0) mounting, .act (.request 1) (plain 5), .act (.request 2) (plain 2)] ++ dying ++
    [.act (.waiter 0) (plain 2), .act (.request 1) (plain 5), .act (.request 2) (plain 1),
      .act (.request 3) (plain 3)]

/-- The volume is mounted again while the goroutine of its first worker is about
to unmount the target. -/
def lateUnmount : List (Turn Thread Reply ProcessId) :=
  [.act (.request 0) mounting] ++ dying ++
    [.act (.request 3) (plain 6 ++ starting ++ plain 3)]

/-- A mount is about to register its worker when the inventory is listed. -/
def lateMount : List (Turn Thread Reply ProcessId) :=
  [.act (.request 0) (plain 4 ++ starting), .act (.request 4) (plain 3)]

def listed : List (Turn Thread Reply ProcessId) :=
  [.act (.request 0) mounting, .act (.request 4) (plain 3)]

end Sample

end ClusterState.MountManager
