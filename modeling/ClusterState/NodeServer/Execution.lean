import ClusterState.Concurrency.Execution
import ClusterState.NodeServer.Exclusion

/-! # Executions of the node service

Schedules of calls for one volume, carried out. -/

namespace ClusterState.NodeServer

open Concurrency

/-- An answer from outside. `plain` is what the service itself answers, and success of
everything else. -/
inductive Reply where
  | plain
  | no
  | fails (err : String)

def State.answered (s : State) : (o : Operation) → Reply → Option o.Value
  | .load v, .plain => some (s.volumes.lookup v)
  | .store _ _, .plain => some ()
  | .delete _, .plain => some ()
  | .removeVolumeMutex _, .plain => some ()
  | .isStagingPathHealthy _, .plain => some true
  | .isStagingPathHealthy _, .no => some false
  | .statStale _, .plain => some true
  | .statStale _, .no => some false
  | .cleanupStaleStagingPath _, .plain => some (.ok ())
  | .newMounter _ _ _, .plain => some (.ok ())
  | .stage _ _, .plain => some (.ok ())
  | .applyMountRootOwnership _ _, .plain => some (.ok ())
  | .applyMountRootOwnershipKernel _ _, .plain => some (.ok ())
  | .getVolumeCapacity _, .fails err => some (.error err)
  | .publish _ _ _, .plain => some (.ok ())
  | .unstage _ _, .plain => some (.ok ())
  | _, _ => none

theorem State.answers_of_answered {s : State} {o : Operation} {y : Reply} {x : o.Value}
    (h : s.answered o y = some x) : s.Answers o x := by
  cases o with
  | load v =>
    cases y <;> cases h
    rfl
  | _ => trivial

def State.respond (i : Thread) : (r : Request) → State → Reply → Option (Answer r × State)
  | .get k, s, .plain => some (s.locks.mutexOf k, { s with locks := s.locks.get i k })
  | .lock k m, s, .plain =>
    if s.locks.locked m = false then some ((), { s with locks := s.locks.lock i k m }) else none
  | .unlock k m, s, .plain => some ((), { s with locks := s.locks.unlock i k m })
  | .own o, s, y => (s.answered o y).map fun x => (x, s.after o)
  | _, _, _ => none

theorem State.performs_of_respond {i : Thread} {r : Request} {s s' : State} {y : Reply}
    {x : Answer r} (h : State.respond i r s y = some (x, s')) : State.Performs i r s x s' := by
  unfold State.respond at h
  split at h
  · cases h
    exact ⟨rfl, rfl⟩
  · split at h
    · rename_i hfree
      cases h
      exact ⟨hfree, rfl⟩
    · cases h
  · cases h
    rfl
  · obtain ⟨x', hx', heq⟩ := Option.map_eq_some_iff.mp h
    cases heq
    exact ⟨State.answers_of_answered hx', rfl⟩
  · cases h

def responder : Responder system Reply Empty where
  respond := State.respond
  happen e := e.elim
  performs_of_respond := State.performs_of_respond
  env_of_happen := fun {e} => e.elim

instance (i : Thread) (r : Request) (s : State) : Decidable (FreshGets i r s) := by
  unfold FreshGets
  split <;> infer_instance

theorem reachable_of_execute {calls : Thread → Call} {A : Steps} [∀ i r s, Decidable (A i r s)]
    {turns : List (Turn Thread Reply Empty)} {check : Run → Bool}
    (h : ((responder.under A).execute turns (start calls)).any check = true) :
    ∃ run, Reachable calls A run ∧ check run = true := Responder.exists_reaches h

namespace Sample

def plain (n : Nat) : List Reply := List.replicate n .plain

/-- A publish that stages the volume again, between its lookup in the memory and its bind
mount. -/
def restaging : List Reply := [.no] ++ plain 5 ++ [.fails "no capacity", .plain]

def publishing : List Reply := plain 3 ++ restaging ++ plain 2

def calls : Nat → Call
  | 0 => .nodePublishVolume ⟨"v", "/pod", "/staging", some ⟨none, none⟩, false, ∅⟩
  | 1 => .nodePublishVolume ⟨"v", "/other", "/staging", some ⟨none, none⟩, false, ∅⟩
  | _ => .nodeUnstageVolume ⟨"v", "/staging"⟩

/-- After a publish the next one holds the volume, and an unstage of it waits. -/
def publishHolds : List (Turn Thread Reply Empty) :=
  [.act 0 publishing, .act 1 (plain 2), .act 2 (plain 1)]

end Sample

end ClusterState.NodeServer
