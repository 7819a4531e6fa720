import ClusterState.NodeServer.Requests

/-! # Locked sections of the node service

Every handler locks only the mutex it has looked up and unlocks only the mutex
it has locked. Handlers of one volume then exclude each other in every run in
which mutexes are created for idle volumes only.
-/

namespace ClusterState.NodeServer

open Concurrency

abbrev Steps := Thread → Request → State → Prop

/-- A mutex is only created for a volume no request is busy with. -/
def FreshGets (_ : Thread) : Request → State → Prop
  | .get k, s => s.locks.FreshGet k
  | _, _ => True

def Steps.Meet (A C : Steps) : Prop := ∀ i r s, A i r s → C i r s

def Guard (i : Thread) : Request → State → Prop
  | .lock k m, s => ⟨i, k, m⟩ ∈ s.locks.waiting
  | .unlock k m, s => ⟨i, k, m⟩ ∈ s.locks.holding
  | _, _ => True

structure Inv (A : Steps) (s : State) : Prop where
  tidy : s.locks.Tidy
  coherent : A.Meet FreshGets → s.locks.Coherent

def Quiet : Request → Prop
  | .own _ => True
  | _ => False

section Preservation

variable {A : Steps} {s s' : State} {i : Thread}

theorem locks_after (o : Operation) :
    (s.after o).locks = s.locks ∨ ∃ k, (s.after o).locks = s.locks.delete k := by
  cases o with
  | removeVolumeMutex k => exact .inr ⟨k, rfl⟩
  | _ => exact .inl rfl

theorem Inv.performs (h : Inv A s) {r : Request} {x : Answer r} (hguard : Guard i r s)
    (hallowed : A i r s) (hp : State.Performs i r s x s') : Inv A s' := by
  cases r with
  | get k =>
    obtain ⟨-, rfl⟩ := hp
    exact ⟨⟨h.tidy.locked, h.tidy.once⟩, fun hfresh =>
      (h.coherent hfresh).get (hfresh i _ s hallowed)⟩
  | lock k m =>
    obtain ⟨hfree, rfl⟩ := hp
    exact ⟨h.tidy.lock hfree, fun hfresh => (h.coherent hfresh).lock hguard⟩
  | unlock k m =>
    obtain rfl := hp
    exact ⟨h.tidy.unlock hguard, fun hfresh => (h.coherent hfresh).unlock⟩
  | own o =>
    obtain ⟨-, rfl⟩ := hp
    rcases locks_after (s := s) o with hsame | ⟨k, hdelete⟩
    · refine ⟨?_, fun hfresh => ?_⟩
      · rw [hsame]
        exact h.tidy
      · rw [hsame]
        exact h.coherent hfresh
    · refine ⟨?_, fun hfresh => ?_⟩
      · rw [hdelete]
        exact ⟨h.tidy.locked, h.tidy.once⟩
      · rw [hdelete]
        exact (h.coherent hfresh).delete

end Preservation

def discipline (A : Steps) : Discipline Thread Request Answer State where
  toSystem := system.under A
  inv := Inv A
  guard := Guard
  quiet _ := Quiet
  guard_of_quiet i r s hquiet := by
    cases r with
    | own o => trivial
    | _ => cases hquiet
  inv_performs _ _ _ _ _ hinv hguard hperforms := hinv.performs hguard hperforms.1 hperforms.2
  inv_env _ _ _ henv := henv.elim

theorem locking {A : Steps} :
    (discipline A).Locking State.locks (fun s l => { s with locks := l }) where
  locks_set _ _ := rfl
  tidy _ hinv := hinv.tidy
  guard_get _ _ _ := trivial
  guard_lock _ _ _ _ := Iff.rfl
  guard_unlock _ _ _ _ := Iff.rfl
  performs_get _ _ _ _ _ hp := hp.2
  performs_lock _ _ _ _ _ _ hp := hp.2
  performs_unlock _ _ _ _ _ _ hp := hp.2
  performs_own := by
    rintro i o s x s' ⟨-, -, rfl⟩
    rcases locks_after (s := s) o with hsame | ⟨k, hdelete⟩
    · rw [hsame]
      exact ⟨rfl, rfl⟩
    · rw [hdelete]
      exact ⟨rfl, rfl⟩
  env _ _ henv := henv.elim
  quiet_own i r hquiet := by
    cases r with
    | own o => exact ⟨o, rfl⟩
    | _ => cases hquiet

/-! ## The handlers -/

section Handlers

variable {A : Steps} {i : Thread} {s : State}

def Conducts (A : Steps) (i : Thread) (p : Api Unit) : Prop :=
  ∀ s, (discipline A).Meets i (fun _ _ => True) (fun _ _ => True) p s

theorem conducts_require {ok : Prop} [Decidable ok] {code : Code} {message : String}
    {p : Api Unit} (hp : Conducts A i p) :
    Conducts A i (require ok code message >>= fun _ => p) := by
  intro s
  unfold require
  split
  · exact hp s
  · trivial

theorem conducts_withLock {v : String} {body : Api Unit} (hbody : body.Only Quiet) :
    Conducts A i (withLock v body) := by
  intro s
  have htrue : ∀ j, (discipline A).Stable j (fun _ => True) := fun _ _ _ _ _ => trivial
  refine (locking.meets_withLock (F := []) (P := fun _ => True) (Q := fun _ _ => True)
    (List.forall_mem_nil _) (htrue i) (fun _ _ _ => trivial) (fun _ => htrue i)
    (fun _ _ _ _ => trivial) ?_ (List.forall_mem_nil _) trivial).mono (fun _ _ _ => trivial)
    (fun _ _ _ => trivial)
  intro m t hheld _
  have hthread : ∀ u ∈ ([⟨i, v, m⟩] : List (LockUse String Thread)), u.thread = i := by
    intro u hu
    rw [List.mem_singleton.mp hu]
  exact (Discipline.Meets.of_only (locking.stable_held hthread) hbody hheld).mono
    (fun _ _ h => ⟨h, trivial⟩) (fun _ _ h => h)

theorem conducts_serve (call : Call) : Conducts A i (serve call) := by
  have hown : ∀ o : Operation, o.Ordinary → Quiet (.own o) := fun _ _ => trivial
  cases call with
  | nodeStageVolume req =>
    exact conducts_require (conducts_require (conducts_require
      (conducts_withLock (only_stageLocked hown req fun _ _ => trivial))))
  | nodePublishVolume req =>
    exact conducts_require (conducts_require (conducts_require (conducts_require
      (conducts_withLock (only_publishLocked hown req fun _ _ => trivial)))))
  | nodeUnpublishVolume req =>
    exact conducts_require (conducts_require (conducts_withLock (only_unpublishLocked hown req)))
  | nodeUnstageVolume req =>
    exact conducts_require (conducts_require (conducts_withLock (only_unstageLocked hown req)))
  | nodeExpandVolume req =>
    exact conducts_require (conducts_require (conducts_withLock (only_expandLocked hown req)))

end Handlers

def Reachable (calls : Thread → Call) (A : Steps) (run : Run) : Prop :=
  (system.under A).Reaches (start calls) run

theorem Reachable.inv {calls : Thread → Call} {A : Steps} {run : Run}
    (h : Reachable calls A run) : Inv A run.shared := by
  have hstart : (discipline A).Sound (start calls) :=
    ⟨⟨KeyedLock.tidy_empty, fun _ => KeyedLock.coherent_empty⟩,
      fun i => conducts_serve (calls i) State.initial⟩
  exact (hstart.reaches h).1

theorem Reachable.exclusive {calls : Thread → Call} {run : Run}
    (h : Reachable calls FreshGets run) : run.shared.locks.Exclusive :=
  KeyedLock.exclusive_of_coherent h.inv.tidy (h.inv.coherent fun _ _ _ hmet => hmet)

end ClusterState.NodeServer
