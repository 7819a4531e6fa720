import ClusterState.Concurrency.Evaluation
import ClusterState.Recycler.Cycler

/-! # Batches

`CycleBatch` taken by its calls of `CycleOne`: which candidates it attempts, and in which order.
-/

namespace ClusterState.Recycler

open Concurrency

inductive BatchCall where
  | cycleOne (pod : Pod)
  | smokeWait (pod : Pod)
  | sleep

@[reducible] def BatchCall.Value : BatchCall → Type
  | .cycleOne _ => Except String Unit
  | .smokeWait _ => Except SmokeError Unit
  | .sleep => Bool

abbrev BatchApi := Program BatchCall BatchCall.Value String

def batchCall (q : BatchCall) : BatchApi q.Value := .ask q .done

namespace Cycler

variable (c : Cycler)

def batchThen (pod : Pod) (last : Bool) (next : BatchApi Unit) : BatchApi Unit := do
  let _ ← batchCall (.cycleOne pod)
  if !last && 0 < c.stagger then
    if ← batchCall .sleep then pure () else next
  else next

def batchEach : List Pod → BatchApi Unit
  | [] => pure ()
  | pod :: rest => do
    if c.gated pod then
      match ← batchCall (.smokeWait pod) with
      | .error .canceled => pure ()
      | .error .failed => batchEach rest
      | .ok () => c.batchThen pod rest.isEmpty (batchEach rest)
    else c.batchThen pod rest.isEmpty (batchEach rest)

def batch (candidates : List Pod) : BatchApi Unit := c.batchEach (orderCandidates c candidates)

def carryOut : (q : BatchCall) → Api q.Value
  | .cycleOne pod => do
    let result ← cycleOne c pod
    act .settle
    pure result
  | .smokeWait pod => do
    match ← act (.smokeWait pod) with
    | .error .failed =>
      act .settle
      pure (.error .failed)
    | result => pure result
  | .sleep => act .sleep

end Cycler

section Interp

variable {c : Cycler}

theorem interp_batchThen (pod : Pod) (last : Bool) (next : BatchApi Unit) :
    (c.batchThen pod last next).interp c.carryOut = cycleThen c pod last (next.interp c.carryOut) := by
  have hnext : (if !last && 0 < c.stagger then batchCall .sleep >>= fun stop =>
      if stop then pure () else next else next : BatchApi Unit).interp c.carryOut =
      if !last && 0 < c.stagger then act .sleep >>= fun stop =>
        if stop then pure () else next.interp c.carryOut else next.interp c.carryOut := by
    split
    · rw [Program.interp_bind]
      refine congrArg (Program.ask Action.sleep) (funext fun stop => ?_)
      cases stop <;> rfl
    · rfl
  change ((cycleOne c pod).bind fun result => Program.ask Action.settle fun _ => .done result).bind
    (fun _ => Program.interp c.carryOut _) = _
  rw [Program.bind_bind]
  exact congrArg (cycleOne c pod).bind
    (funext fun _ => congrArg (Program.ask Action.settle) (funext fun _ => hnext))

/-- The cycler's batch is this batch with its calls carried out. -/
theorem interp_batchEach (pods : List Pod) :
    (c.batchEach pods).interp c.carryOut = cycleEach c pods := by
  induction pods with
  | nil => rfl
  | cons pod rest ih =>
    rw [Cycler.batchEach, cycleEach]
    split
    · rw [Program.interp_bind]
      refine congrArg (Program.ask (Action.smokeWait pod)) (funext fun result => ?_)
      rcases result with (_ | _) | _
      · rfl
      · exact congrArg (Program.ask Action.settle) (funext fun _ => ih)
      · apply (interp_batchThen pod _ _).trans
        rw [ih]
        rfl
    · exact (interp_batchThen pod _ _).trans (by rw [ih])

end Interp

/-! ## What is attempted -/

/-- What happens during a batch: which of the gates pass, by the number of the wait, how the
calls of `CycleOne` end, and whether the context is found to be cancelled when it is looked at. -/
structure Day where
  passes : Nat → Bool
  cycled : Nat → Except String Unit
  cancelled : Nat → Bool

structure Progress where
  attempted : List Pod
  waits : Nat
  looks : Nat

namespace Day

variable (d : Day) (c : Cycler)

def respond : (q : BatchCall) → Progress → Option (q.Value × Progress)
  | .cycleOne pod, s =>
    some (d.cycled s.attempted.length, { s with attempted := s.attempted ++ [pod] })
  | .smokeWait _, s =>
    some (if d.cancelled s.looks then .error .canceled
      else if d.passes s.waits then .ok () else .error .failed,
      { s with waits := s.waits + 1, looks := s.looks + 1 })
  | .sleep, s => some (d.cancelled s.looks, { s with looks := s.looks + 1 })

def attempted (candidates : List Pod) : List Pod :=
  ((c.batch candidates).eval d.respond ⟨[], 0, 0⟩).2.attempted

/-- The gated candidates whose gates pass, from the wait of this number on. -/
def passing (waits : Nat) (pods : List Pod) : List Pod :=
  ((pods.zipIdx waits).filter fun p => d.passes p.2).map Prod.fst

/-- What a batch is to attempt: the candidates without a gate and then those whose gates pass. -/
def sequence (candidates : List Pod) : List Pod :=
  candidates.filter (fun pod => !c.gated pod) ++ d.passing 0 (candidates.filter c.gated)

def sequenceFrom (waits : Nat) : List Pod → List Pod
  | [] => []
  | pod :: rest =>
    if c.gated pod then
      if d.passes waits then pod :: sequenceFrom (waits + 1) rest else sequenceFrom (waits + 1) rest
    else pod :: sequenceFrom waits rest

section Order

variable {d : Day} {c : Cycler} {pods gatedPods : List Pod}

theorem sequenceFrom_gated (h : ∀ pod ∈ pods, c.gated pod = true) (waits : Nat) :
    d.sequenceFrom c waits pods = d.passing waits pods := by
  induction pods generalizing waits with
  | nil => rfl
  | cons pod rest ih =>
    have hrest := ih (fun p hp => h p (List.mem_cons_of_mem pod hp)) (waits + 1)
    rw [sequenceFrom, if_pos (h pod List.mem_cons_self), passing, List.zipIdx_cons, List.filter_cons]
    split
    · rw [List.map_cons]
      exact congrArg (pod :: ·) hrest
    · exact hrest

theorem sequenceFrom_append (h : ∀ pod ∈ pods, c.gated pod = false) (waits : Nat) :
    d.sequenceFrom c waits (pods ++ gatedPods) = pods ++ d.sequenceFrom c waits gatedPods := by
  induction pods with
  | nil => rfl
  | cons pod rest ih =>
    rw [List.cons_append, sequenceFrom, h pod List.mem_cons_self, if_neg Bool.false_ne_true,
      ih fun p hp => h p (List.mem_cons_of_mem pod hp), List.cons_append]

theorem orderCandidates_eq (candidates : List Pod) : orderCandidates c candidates =
    candidates.filter (fun pod => !c.gated pod) ++ candidates.filter c.gated := by
  unfold orderCandidates Cycler.gated
  cases c.rolloutSmoke with
  | true => rfl
  | false =>
    have hall : ∀ l : List Pod, l.filter (fun _ => true) ++ l.filter (fun _ => false) = l := by
      intro l
      rw [List.filter_true, List.filter_false, List.append_nil]
    exact (hall candidates).symm

theorem sequenceFrom_ordered (candidates : List Pod) :
    d.sequenceFrom c 0 (orderCandidates c candidates) = d.sequence c candidates := by
  rw [orderCandidates_eq, sequenceFrom_append, sequenceFrom_gated, sequence]
  · exact fun pod hpod => (List.mem_filter.mp hpod).2
  · intro pod hpod
    have hgated := (List.mem_filter.mp hpod).2
    exact (Bool.not_eq_true' _).mp hgated

end Order

section Attempts

variable {d : Day} {c : Cycler}

/-- A program attempts pods in the order of a list, all of them unless the context is found to be
cancelled. -/
def Attempts (d : Day) (m : BatchApi Unit) (s : Progress) (pods : List Pod) : Prop :=
  ∃ s', m.eval d.respond s = (some (.ok ()), s') ∧ ∃ done,
    s'.attempted = s.attempted ++ done ∧ done <+: pods ∧ ((∀ n, d.cancelled n = false) → done = pods)

theorem Attempts.stop {s : Progress} {pods : List Pod} {n : Nat} (h : d.cancelled n = true) :
    Attempts d (pure ()) s pods :=
  ⟨s, rfl, [], (List.append_nil _).symm, List.nil_prefix, fun hnever =>
    absurd h (Bool.eq_false_iff.mp (hnever n))⟩

theorem Attempts.cons {pod : Pod} {m next : BatchApi Unit} {s t : Progress} {pods : List Pod}
    (hm : m.eval d.respond s = next.eval d.respond t)
    (hattempted : t.attempted = s.attempted ++ [pod]) (hnext : Attempts d next t pods) :
    Attempts d m s (pod :: pods) := by
  obtain ⟨s', heval, done, hdone, hfront, hall⟩ := hnext
  refine ⟨s', hm.trans heval, pod :: done, ?_, (List.prefix_cons_inj pod).mpr hfront,
    fun hnever => congrArg (pod :: ·) (hall hnever)⟩
  rw [hdone, hattempted, List.append_assoc, List.singleton_append]

theorem Attempts.skip {m next : BatchApi Unit} {s t : Progress} {pods : List Pod}
    (hm : m.eval d.respond s = next.eval d.respond t) (hattempted : t.attempted = s.attempted)
    (hnext : Attempts d next t pods) : Attempts d m s pods := by
  obtain ⟨s', heval, done, hdone, hrest⟩ := hnext
  exact ⟨s', hm.trans heval, done, hattempted ▸ hdone, hrest⟩

theorem attempts_batchThen {pod : Pod} {last : Bool} {next : BatchApi Unit} {s : Progress}
    {pods : List Pod} (hnext : ∀ t : Progress, t.waits = s.waits → Attempts d next t pods) :
    Attempts d (c.batchThen pod last next) s (pod :: pods) := by
  have hone : d.respond (.cycleOne pod) s =
    some (d.cycled s.attempted.length, { s with attempted := s.attempted ++ [pod] }) := rfl
  apply Attempts.cons (Program.eval_ask hone) rfl
  change Attempts d (if !last && 0 < c.stagger then batchCall .sleep >>= _ else next) _ pods
  split
  · have hsleep : d.respond .sleep { s with attempted := s.attempted ++ [pod] } =
      some (d.cancelled s.looks, ⟨s.attempted ++ [pod], s.waits, s.looks + 1⟩) := rfl
    apply Attempts.skip (Program.eval_ask hsleep) rfl
    change Attempts d (if d.cancelled s.looks then pure () else next) _ pods
    split
    · rename_i hcancelled
      exact .stop hcancelled
    · exact hnext _ rfl
  · exact hnext _ rfl

theorem attempts_batchEach (pods : List Pod) (s : Progress) :
    Attempts d (c.batchEach pods) s (d.sequenceFrom c s.waits pods) := by
  induction pods generalizing s with
  | nil => exact ⟨s, rfl, [], (List.append_nil _).symm, List.nil_prefix, fun _ => rfl⟩
  | cons pod rest ih =>
    rw [Cycler.batchEach, sequenceFrom]
    split
    · have hwait : d.respond (.smokeWait pod) s = some (if d.cancelled s.looks then .error .canceled
          else if d.passes s.waits then .ok () else .error .failed,
          { s with waits := s.waits + 1, looks := s.looks + 1 }) := rfl
      apply Attempts.skip (Program.eval_ask hwait) rfl
      by_cases hcancelled : d.cancelled s.looks = true
      · rw [if_pos hcancelled]
        exact .stop hcancelled
      · rw [if_neg hcancelled]
        by_cases hpasses : d.passes s.waits = true
        · rw [if_pos hpasses, if_pos hpasses]
          refine attempts_batchThen fun t ht => ?_
          have hrest := ih t
          rw [ht] at hrest
          exact hrest
        · rw [if_neg hpasses, if_neg hpasses]
          exact ih _
    · refine attempts_batchThen fun t ht => ?_
      rw [← ht]
      exact ih t

end Attempts

end Day

theorem cycleBatch_eq (c : Cycler) (candidates : List Pod) : cycleBatch c candidates =
    (act (.select (orderCandidates c candidates)) >>= fun _ =>
      (c.batch candidates).interp c.carryOut >>= fun _ => act .release) := by
  rw [cycleBatch, Cycler.batch, interp_batchEach]

/-- A batch calls `CycleOne` once for each candidate without a gate and then for each one whose
gate passes, in their order, and a cancelled context only cuts this short. -/
theorem batch_attempts_each_once (c : Cycler) (candidates : List Pod) (d : Day) :
    d.attempted c candidates <+: d.sequence c candidates ∧
      ((∀ n, d.cancelled n = false) → d.attempted c candidates = d.sequence c candidates) := by
  obtain ⟨s', heval, done, hdone, hfront, hall⟩ :=
    Day.attempts_batchEach (d := d) (c := c) (orderCandidates c candidates) ⟨[], 0, 0⟩
  rw [Day.sequenceFrom_ordered] at hfront hall
  have hattempted : d.attempted c candidates = done := by
    rw [Day.attempted, Cycler.batch, heval]
    exact hdone
  rw [hattempted]
  exact ⟨hfront, hall⟩

end ClusterState.Recycler
