import ClusterState.Concurrency.Execution
import ClusterState.Recycler.Cycling

/-! # Runs of the cycler

In calm runs evictions and deletions hit the selected pods, each UID at most once
within the debounce window.
-/

namespace ClusterState.Recycler

open Concurrency

def Reachable (c : Cycler) (A : Steps) (run : Run) : Prop :=
  ∃ pods, (system c A).Reaches (c.start pods) run

/-- Evictions and deletions hit the pod they were meant for, and no UID twice
within the debounce window. -/
structure HitsSelected (c : Cycler) (s : State) : Prop where
  meant : ∀ e ∈ s.effects, e.wanted = e.actual
  once : s.effects.Pairwise fun e e' => e.actual = e'.actual → e'.time + c.ttl ≤ e.time

theorem inv_start (c : Cycler) (pods : AList (fun _ : Key => String)) :
    State.Inv c (c.start pods).shared where
  current _ _ := nofun
  alone _ _ _ := nofun
  marked _ _ := nofun
  past _ := nofun
  meant _ := nofun
  settled _ := nofun
  apart := .nil

theorem Reachable.sound {c : Cycler} {run : Run} (h : Reachable c (CalmSteps c) run) :
    (discipline c).Sound run := by
  obtain ⟨pods, hreach⟩ := h
  have hstart : (discipline c).Sound (c.start pods) :=
    ⟨inv_start c pods, fun _ => meets_program rfl⟩
  exact hstart.reaches hreach

instance (c : Cycler) : ∀ e s, Decidable (CalmSteps c e s) := by
  intro e s
  unfold CalmSteps
  split <;> infer_instance

def AnyStep : Steps := fun _ _ => True

instance (e : Event) (s : State) : Decidable (AnyStep e s) := .isTrue trivial

inductive Reply where
  | plain
  | tooMany
  | fails (err : String)
  | loses (err : String)
  | cancels

inductive Happening where
  | tick (now : Nat)
  | vanish (key : Key)
  | create (key : Key) (uid : String)

namespace State

def struck (s : State) (pod : Pod) : Reply → Option (Except EvictError Unit)
  | .plain => if pod.key ∈ s.pods then some (.ok ()) else none
  | .loses err => if pod.key ∈ s.pods then some (.error (.lost err)) else none
  | .tooMany => some (.error .tooManyRequests)
  | .fails err => some (.error (.other err))
  | .cancels => none

def answered (s : State) (c : Cycler) : (a : Action) → Reply → Option a.Value
  | .select _, .plain => some ()
  | .settle, .plain => some ()
  | .release, .plain => some ()
  | .now, .plain => some s.now
  | .skip uid, .plain => some (s.skips c uid)
  | .mark _, .plain => some ()
  | .evict pod, y => s.struck pod y
  | .forceDelete pod, y => s.struck pod y
  | .sleep, .plain => some false
  | .sleep, .cancels => some true
  | .smokeWait _, .plain => some (.ok ())
  | .smokeWait _, .fails _ => some (.error .failed)
  | .smokeWait _, .cancels => some (.error .canceled)
  | _, _ => none

variable {c : Cycler} {s s' : State}

theorem struck_answers {pod : Pod} {y : Reply} {x : Except EvictError Unit}
    (h : s.struck pod y = some x) :
    (∃ err, x = .error (.other err)) ∨ x = .error .tooManyRequests ∨ pod.key ∈ s.pods := by
  unfold struck at h
  split at h
  case h_1 =>
    split at h
    · rename_i hkey
      exact .inr (.inr hkey)
    · cases h
  case h_2 =>
    split at h
    · rename_i hkey
      exact .inr (.inr hkey)
    · cases h
  case h_3 =>
    cases h
    exact .inr (.inl rfl)
  case h_4 err =>
    cases h
    exact .inl ⟨err, rfl⟩
  case h_5 => cases h

theorem answers_of_answered {a : Action} {y : Reply} {x : a.Value}
    (h : s.answered c a y = some x) : s.Answers c a x := by
  unfold answered at h
  split at h
  case h_7 => exact struck_answers h
  case h_8 => exact struck_answers h
  all_goals cases h
  all_goals first | rfl | trivial

def happen (A : Steps) [∀ e s, Decidable (A e s)] : Happening → State → Option State
  | .tick now, s => if s.now ≤ now then some { s with now } else none
  | .vanish key, s => some { s with pods := s.pods.erase key }
  | .create key uid, s =>
    if key ∉ s.pods ∧ A (.create key uid) s then some { s with pods := s.pods.insert key uid }
    else none

theorem proceeds_of_happen {A : Steps} [∀ e s, Decidable (A e s)] {e : Happening}
    (h : s.happen A e = some s') : s.Proceeds A s' := by
  cases e with
  | tick now =>
    simp only [happen, Option.ite_none_right_eq_some, Option.some.injEq] at h
    obtain ⟨hle, rfl⟩ := h
    exact .tick now hle
  | vanish key =>
    cases h
    exact .vanish key
  | create key uid =>
    simp only [happen, Option.ite_none_right_eq_some, Option.some.injEq] at h
    obtain ⟨⟨hfree, hallowed⟩, rfl⟩ := h
    exact .create key uid hfree hallowed

end State

def responder (c : Cycler) (A : Steps) [∀ e s, Decidable (A e s)] :
    Responder (system c A) Reply Happening where
  respond i a s y := if A (.act i a) s then (s.answered c a y).map fun x => (x, s.after i a x)
    else none
  happen e s := s.happen A e
  performs_of_respond := by
    intro i a s y x s' h
    split at h
    · rename_i hallowed
      obtain ⟨x', hx, heq⟩ := Option.map_eq_some_iff.mp h
      cases heq
      exact ⟨hallowed, State.answers_of_answered hx, rfl⟩
    · cases h
  env_of_happen h := State.proceeds_of_happen h

theorem exists_reachable {c : Cycler} {A : Steps} [∀ e s, Decidable (A e s)]
    {pods : AList (fun _ : Key => String)} {turns : List (Turn Nat Reply Happening)}
    {check : Run → Bool}
    (h : ((responder c A).execute turns (c.start pods)).any check = true) :
    ∃ run, Reachable c A run ∧ check run = true := by
  obtain ⟨run, hreach, hcheck⟩ := Responder.exists_reaches h
  exact ⟨run, ⟨pods, hreach⟩, hcheck⟩

namespace Sample

def replica (uid : String) : Pod := ⟨"db", "db-0", uid, "node-1", [], [], []⟩

/-- The batch of a restarted mount daemon, and a call of the prober. -/
def calls : Nat → List Pod ⊕ Pod
  | 0 => .inl [replica "u1"]
  | _ => .inr (replica "u1")

def cycler : Cycler := ⟨15, 300, 600, false, calls, 2⟩

def pods : AList (fun _ : Key => String) := (∅ : AList _).insert ("db", "db-0") "u1"

/-- The batch waits for a disruption budget. -/
def blocked : List (Turn Nat Reply Happening) :=
  [.act 0 [.plain, .plain, .plain, .tooMany, .plain, .plain]]

end Sample

theorem cycler_hits_selected {c : Cycler} {run : Run} (h : Reachable c (CalmSteps c) run) :
    HitsSelected c run.shared :=
  ⟨h.sound.1.meant, h.sound.1.apart⟩

/-- The pod is deleted by force when the deadline has passed, and the prober
leaves it alone. -/
theorem blocked_pod_deleted : ∃ run, Reachable Sample.cycler (CalmSteps Sample.cycler) run ∧
    run.shared.effects = [⟨"u1", "u1", 301⟩] ∧ HitsSelected Sample.cycler run.shared := by
  have hrun : ((responder Sample.cycler (CalmSteps Sample.cycler)).execute
      (Sample.blocked ++ ([.happens (.tick 301),
        .act 0 [.tooMany, .plain, .plain, .plain, .plain, .plain],
        .act 1 [.plain, .plain, .plain, .plain]] : List (Turn Nat Reply Happening)))
      (Sample.cycler.start Sample.pods)).any (fun run =>
        decide (run.shared.effects = [⟨"u1", "u1", 301⟩])) = true := by
    decide
  obtain ⟨run, hreach, hcheck⟩ := exists_reachable hrun
  exact ⟨run, hreach, of_decide_eq_true hcheck, cycler_hits_selected hreach⟩

/-- The pod is replaced while the batch waits, and its successor is evicted. -/
theorem successor_evicted : ∃ run, Reachable Sample.cycler AnyStep run ∧
    ¬HitsSelected Sample.cycler run.shared := by
  have hrun : ((responder Sample.cycler AnyStep).execute
      (Sample.blocked ++ ([.happens (.vanish ("db", "db-0")),
        .happens (.create ("db", "db-0") "u2"), .act 0 [.plain]] : List (Turn Nat Reply Happening)))
      (Sample.cycler.start Sample.pods)).any (fun run =>
        decide (run.shared.effects = [⟨"u1", "u2", 0⟩])) = true := by
    decide
  obtain ⟨run, hreach, hcheck⟩ := exists_reachable hrun
  have heffects := of_decide_eq_true hcheck
  refine ⟨run, hreach, fun h => ?_⟩
  have hmeant := h.meant ⟨"u1", "u2", 0⟩ (by rw [heffects]; exact List.mem_singleton.mpr rfl)
  exact absurd hmeant (by decide)

end ClusterState.Recycler
