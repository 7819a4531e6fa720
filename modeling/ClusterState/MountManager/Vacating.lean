import ClusterState.MountManager.Conduct

/-! # Unmounting for good

Only a mount of a volume registers an entry for it. As long as no mount of the
volume is under way, an unmount that returns without an error therefore leaves
no entry, and no entry comes back.
-/

namespace ClusterState.MountManager

open Concurrency

def NoPut (v : String) : Request → Prop
  | .own (.putMount u _) => u ≠ v
  | _ => True

section NoPut

variable {v : String}

theorem noPut_orThrow {α : Type} {wrap : String → String} {x : Except String α} :
    (orThrow wrap x).Only (NoPut v) := by
  cases x <;> trivial

theorem noPut_require {ok : Prop} [Decidable ok] {err : String} :
    (require ok err).Only (NoPut v) := by
  unfold require
  split <;> trivial

theorem noPut_withLock {u : String} {body : Api Response} (hbody : body.Only (NoPut v)) :
    (withLock u body).Only (NoPut v) := by
  refine ⟨trivial, fun m => ⟨trivial, fun _ => hbody.attempt.bind fun result => ?_⟩⟩
  refine ⟨trivial, fun _ => ?_⟩
  cases result <;> trivial

theorem noPut_of_quiet {n : Nat} {r : Request} (h : Quiet (.request n) r) : NoPut v r := by
  unfold NoPut
  split
  · cases h
  · trivial

theorem noPut_of_only {α : Type} {m : Api α} (h : m.Only (Quiet (.request 0))) :
    m.Only (NoPut v) := h.mono fun _ => noPut_of_quiet

theorem noPut_wait {p : ProcessId} : (wait p).Only (NoPut v) := by
  refine ⟨trivial, fun x => ⟨trivial, fun preserve => ?_⟩⟩
  cases preserve with
  | true => exact ⟨trivial, fun _ => ⟨trivial, fun _ => trivial⟩⟩
  | false => exact ⟨trivial, fun _ => ⟨trivial, fun _ => ⟨trivial, fun _ => trivial⟩⟩⟩

theorem noPut_startWeedMountProcessWithOptions {cmd : Command} {ready : Api Unit}
    (hready : ready.Only (NoPut v)) :
    (startWeedMountProcessWithOptions cmd ready).Only (NoPut v) := by
  refine ⟨trivial, fun _ => noPut_orThrow.bind fun _ => ⟨trivial, fun _ =>
    noPut_orThrow.bind fun _ => ⟨trivial, fun _ => noPut_orThrow.bind fun p => ?_⟩⟩⟩
  refine hready.attempt.bind fun result => ?_
  cases result with
  | error err => exact (noPut_of_only (only_stop p)).attempt.bind fun _ => trivial
  | ok _ =>
    refine ⟨trivial, fun fd => ?_⟩
    cases fd with
    | error err => trivial
    | ok fd => exact ⟨trivial, fun _ => trivial⟩

theorem noPut_startMount {d : Deployment} {req : MountRequest} :
    (startMount d req).Only (NoPut v) := by
  refine (noPut_of_only (only_ensureTargetClean _)).bind fun _ => noPut_require.bind fun _ => ⟨trivial, fun _ => ?_⟩
  refine noPut_orThrow.bind fun _ => noPut_require.bind fun _ => noPut_require.bind fun _ => ?_
  exact (noPut_startWeedMountProcessWithOptions (noPut_of_only (only_waitForMount _ _))).bind fun _ => trivial

theorem noPut_mountNew {d : Deployment} {req : MountRequest} (hv : req.volumeID ≠ v) :
    (mountNew d req).Only (NoPut v) :=
  noPut_startMount.bind fun _ => ⟨hv, fun _ => trivial⟩

theorem noPut_mountLocked {d : Deployment} {req : MountRequest} (hv : req.volumeID ≠ v) :
    (mountLocked d req).Only (NoPut v) := by
  refine ⟨trivial, fun entry => ?_⟩
  cases entry with
  | none => exact noPut_mountNew hv
  | some entry =>
    dsimp only
    change Program.Only (NoPut v) (if _ then _ else _)
    split
    · trivial
    · refine ⟨trivial, fun alive => ?_⟩
      cases alive with
      | true => trivial
      | false => exact ⟨trivial, fun _ => noPut_mountNew hv⟩

theorem noPut_unmountLocked {req : UnmountRequest} : (unmountLocked req).Only (NoPut v) := by
  refine ⟨trivial, fun entry => ?_⟩
  cases entry with
  | none => trivial
  | some entry =>
    exact (noPut_of_only (only_stop _)).bind fun _ => ⟨trivial, fun _ => ⟨trivial, fun _ => trivial⟩⟩

theorem noPut_serve {d : Deployment} {call : Call} (hcall : (handle d call).Only (NoPut v)) :
    (serve d call).Only (NoPut v) :=
  hcall.attempt.bind fun _ => ⟨trivial, fun _ => trivial⟩

theorem noPut_mount {d : Deployment} {req : MountRequest} (hv : req.volumeID ≠ v) :
    (mount d (some req)).Only (NoPut v) := by
  refine ⟨trivial, fun busy => ?_⟩
  cases busy with
  | true => trivial
  | false =>
    have hvalid : (Program.ofExcept (validateMountRequest req) : Api Unit).Only (NoPut v) := by
      cases validateMountRequest req <;> trivial
    exact hvalid.bind fun _ => noPut_withLock (noPut_mountLocked hv)

theorem noPut_unmount {req : UnmountRequest} : (unmount (some req)).Only (NoPut v) := by
  refine ⟨trivial, fun busy => ?_⟩
  cases busy with
  | true => trivial
  | false =>
    change Program.Only (NoPut v) (if _ then _ else _)
    split
    · trivial
    · exact noPut_withLock noPut_unmountLocked

end NoPut

/-! ## An unmount that nobody gets in the way of -/

def Answering : Request → Prop
  | .own (.reply _) => True
  | _ => False

def Silent (v : String) (r : Request) : Prop := NoPut v r ∧ ¬Answering r

/-- Nobody registers the volume, and request `n` only succeeds when there is no
entry for it. -/
def Vacates (v : String) (n : Nat) (i : Thread) (r : Request) (s : State) : Prop :=
  NoPut v r ∧ ∀ resp, i = .request n → r = .own (.reply (.ok resp)) → s.mountOf v = none

def vacating (d : Deployment) (v : String) (n : Nat) :
    Discipline Thread Request Answer State where
  toSystem := system d
  inv _ := True
  guard := Vacates v n
  quiet _ := Silent v
  guard_of_quiet i r s hquiet := by
    refine ⟨hquiet.1, ?_⟩
    rintro resp - rfl
    exact absurd trivial hquiet.2
  inv_performs _ _ _ _ _ _ _ _ := trivial
  inv_env _ _ _ _ := trivial

section Vacating

variable {d : Deployment} {v : String} {n : Nat} {i : Thread} {s s' : State}

theorem mountOf_after_none {o : Operation} {x : o.Value} (ho : NoPut v (.own o))
    (hs : s.mountOf v = none) : (s.after d i o x).mountOf v = none := by
  rcases mountOf_after (d := d) (i := i) (o := o) (x := x) (s := s) (v := v) with
    hsame | hnone | ⟨e, rfl⟩
  · exact hsame.trans hs
  · exact hnone
  · exact absurd rfl ho

theorem mountOf_performs {r : Request} {x : Answer r} (hr : NoPut v r)
    (hp : State.Performs d i r s x s') (hs : s.mountOf v = none) : s'.mountOf v = none := by
  cases r with
  | get k =>
    obtain ⟨-, rfl⟩ := hp
    exact hs
  | lock k m =>
    obtain ⟨-, rfl⟩ := hp
    exact hs
  | unlock k m =>
    obtain rfl := hp
    exact hs
  | own o =>
    obtain ⟨-, rfl⟩ := hp
    exact mountOf_after_none hr hs

theorem mountOf_exits (h : State.Exits s s') (hs : s.mountOf v = none) : s'.mountOf v = none := by
  obtain ⟨p, w, -, -, rfl⟩ := h
  exact hs

theorem stable_mountOf : (vacating d v n).Stable i (fun s => s.mountOf v = none) := by
  rintro s s' ⟨-, hexits | ⟨j, r, x, -, hguard, hp⟩⟩ hs
  · exact mountOf_exits hexits hs
  · exact mountOf_performs hguard.1 hp hs

theorem silent_of_only {α : Type} {m : Api α} (h : m.Only (Quiet (.request 0))) :
    m.Only (Silent v) := by
  refine h.mono fun r hr => ⟨noPut_of_quiet hr, ?_⟩
  unfold Answering
  split
  · cases hr
  · exact id

theorem meets_silent {α : Type} {m : Api α} (hm : m.Only (Silent v)) (s : State) :
    (vacating d v n).Meets i (fun _ _ => True) (fun _ _ => True) m s :=
  Discipline.Meets.of_only (P := fun _ => True) (fun _ _ _ _ => trivial) hm trivial

theorem meets_silent_bind {α β : Type} {m : Api α} {f : α → Api β} {Q : β → State → Prop}
    (hm : m.Only (Silent v))
    (hf : ∀ a s, (vacating d v n).Meets i Q (fun _ _ => True) (f a) s) (s : State) :
    (vacating d v n).Meets i Q (fun _ _ => True) (m >>= f) s :=
  (meets_silent hm s).bind fun a t _ => hf a t

theorem meets_withLock {u : String} {body : Api Response}
    (hbody : ∀ s, (vacating d v n).Meets i (fun _ s => s.mountOf v = none) (fun _ _ => True) body s)
    (s : State) : (vacating d v n).Meets i (fun _ s => s.mountOf v = none) (fun _ _ => True)
      (withLock u body) s := by
  refine fun t _ _ => ⟨⟨trivial, nofun⟩, fun m t' _ => ?_⟩
  refine fun t _ _ => ⟨⟨trivial, nofun⟩, fun _ t' _ => ?_⟩
  refine (hbody t').attempt.bind fun result t' hresult => ?_
  refine fun t hrely _ => ⟨⟨trivial, nofun⟩, fun _ t' hp => ?_⟩
  rcases hresult with ⟨resp, rfl, hnone⟩ | ⟨err, rfl, -⟩
  · obtain rfl : t' = { t with locks := t.locks.unlock i u m } := hp
    have hstill : t.mountOf v = none := stable_mountOf.rely hrely hnone
    exact hstill
  · trivial

theorem meets_unmountLocked (req : UnmountRequest) (s : State) :
    (vacating d req.volumeID n).Meets i (fun _ s => s.mountOf req.volumeID = none) (fun _ _ => True)
      (unmountLocked req) s := by
  refine fun t _ _ => ⟨⟨trivial, nofun⟩, fun entry t' hp => ?_⟩
  obtain ⟨hentry, rfl⟩ := hp
  cases entry with
  | none => exact hentry.symm
  | some entry =>
    refine meets_silent_bind (silent_of_only (only_stop _)) (fun _ t₁ => ?_) _
    refine fun t _ _ => ⟨⟨trivial, nofun⟩, fun _ t' _ => ?_⟩
    refine fun t _ _ => ⟨⟨trivial, nofun⟩, fun _ t' hp => ?_⟩
    obtain ⟨-, rfl⟩ := hp
    exact AList.lookup_erase req.volumeID t.mounts

theorem meets_unmount (req : UnmountRequest) (s : State) :
    (vacating d req.volumeID n).Meets i (fun _ s => s.mountOf req.volumeID = none) (fun _ _ => True)
      (unmount (some req)) s := by
  refine fun t _ _ => ⟨⟨trivial, nofun⟩, fun busy t' _ => ?_⟩
  cases busy with
  | true => trivial
  | false =>
    change Discipline.Meets _ _ _ _ (if _ then _ else _) _
    split
    · trivial
    · exact meets_withLock (meets_unmountLocked req) t'

/-- An unmount that succeeds leaves no entry. -/
theorem meets_serve_unmount (req : UnmountRequest) (s : State) :
    (vacating d req.volumeID n).Meets (.request n) (fun _ _ => True) (fun _ _ => True)
      (serve d (.unmount (some req))) s := by
  refine (meets_unmount req s).attempt.bind fun result t hresult => ?_
  refine fun t' hrely _ => ⟨⟨trivial, ?_⟩, fun _ _ _ => trivial⟩
  rintro resp - heq
  cases heq
  rcases hresult with ⟨_, -, hnone⟩ | ⟨_, herr, -⟩
  · exact stable_mountOf.rely hrely hnone
  · cases herr

end Vacating

end ClusterState.MountManager
