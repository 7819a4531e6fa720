import ClusterState.MountManager.Vacating
import ClusterState.NodeServer.Daemons

/-! # When the mount service is rid of a volume

It is when it has no entry of the volume and no mount of it under way. That lasts until
the next mount is sent.
-/

namespace ClusterState.NodeServer.Daemons

open Concurrency

open MountManager (Deployment NoPut vacating Vacates)

def Mounts (d : Deployment) (v : String) (n : Nat) : Prop :=
  ∃ req, d.calls n = .mount (some req) ∧ req.volumeID = v

/-- Every Mount of the volume that the service was sent has come to its end. -/
def Quiescent (d : Deployment) (v : String) (s : Daemons) : Prop :=
  ∀ n ∈ s.sent, Mounts d v n → (s.service.procs (.request n)).finished = true

/-- The service has no entry of the volume and is not about to get one. -/
def Vacant (d : Deployment) (v : String) (s : Daemons) : Prop :=
  s.mountOf v = none ∧ s.Quiescent d v

structure Inv (d : Deployment) (s : Daemons) : Prop where
  unsent : ∀ n, n ∉ s.sent → s.service.procs (.request n) = MountManager.serve d (d.calls n)
  spares : ∀ v i, s.Live i → (∀ n, i = .request n → ¬Mounts d v n) →
    (s.service.procs i).Only (NoPut v)
  answered : ∀ n x, (n, x) ∈ s.replies → n ∈ s.sent
  named : ∀ v volume, s.volumes.lookup v = some volume → volume.volumeId = v

/-- Nothing has come of an Unmount yet, or the volume is vacant. -/
structure Awaiting (d : Deployment) (v : String) (n : Nat) (s : Daemons) : Prop where
  quiescent : s.Quiescent d v
  meets : (vacating d v n).Meets (.request n) (fun _ _ => True) (fun _ _ => True)
    (s.service.procs (.request n)) s.service.shared
  answered : ∀ resp, (n, .ok resp) ∈ s.replies → s.mountOf v = none

/-! ## What the mount service does meanwhile -/

section Proceeding

variable {d : Deployment} {v : String} {n : Nat} {s s' : Daemons}

theorem proceeds_cases (h : Proceeds d s s') :
    (∃ t, MountManager.State.Exits s.service.shared t ∧ s' = { s with service := ⟨s.service.procs, t⟩ }) ∨
    ∃ i r next x t log, s.Live i ∧ s.service.procs i = .ask r next ∧
      MountManager.State.Performs d i r s.service.shared x t ∧
      (∀ m y, (m, y) ∈ log → (m, y) ∈ s.replies ∨ i = .request m ∧ r = .own (.reply y)) ∧
      s' = { s with service := s.service.resume i (next x) t, replies := log } := by
  cases h with
  | works run hstep =>
    cases hstep with
    | act i r next x t hask hperforms =>
      exact .inr ⟨i, r, next, x, t, s.replies, hperforms.1.1, hask, hperforms.2,
        fun _ _ hmem => .inl hmem, rfl⟩
    | env t henv => exact .inl ⟨t, henv, rfl⟩
  | replies n result next hsent hask =>
    refine .inr ⟨.request n, .own (.reply result), next, (), _, (n, result) :: s.replies, hsent, hask,
      ⟨trivial, rfl⟩, ?_, rfl⟩
    rintro m y (_ | ⟨_, hmem⟩)
    · exact .inr ⟨rfl, rfl⟩
    · exact .inl hmem

theorem Inv.proceeds (h : Inv d s) (hstep : Proceeds d s s') : Inv d s' := by
  rcases proceeds_cases hstep with ⟨t, -, rfl⟩ | ⟨i, r, next, x, t, log, hlive, hask, -, hlog, rfl⟩
  · exact ⟨h.unsent, h.spares, h.answered, h.named⟩
  · refine ⟨fun n hn => ?_, fun v j hj hmounts => ?_, fun n y hmem => ?_, h.named⟩
    · have hni : .request n ≠ i := by
        rintro rfl
        exact hn hlive
      simpa [Config.resume, hni] using h.unsent n hn
    · by_cases hji : j = i
      · subst hji
        have honly := h.spares v j hlive hmounts
        rw [hask] at honly
        simpa [Config.resume] using honly.2 x
      · simpa [Config.resume, hji] using h.spares v j hj hmounts
    · rcases hlog n y hmem with hmem | ⟨rfl, -⟩
      · exact h.answered n y hmem
      · exact hlive

theorem Quiescent.proceeds (h : s.Quiescent d v) (hstep : Proceeds d s s') : s'.Quiescent d v := by
  rcases proceeds_cases hstep with ⟨t, -, rfl⟩ | ⟨i, r, next, x, t, log, -, hask, -, -, rfl⟩
  · exact h
  · intro n hn hmounts
    have hfinished := h n hn hmounts
    have hni : .request n ≠ i := by
      rintro rfl
      rw [hask] at hfinished
      cases hfinished
    simpa [Config.resume, hni] using hfinished

theorem Quiescent.noPut (h : s.Quiescent d v) (hinv : Inv d s) {i : MountManager.Thread}
    {r : MountManager.Request}
    {next : MountManager.Answer r → MountManager.Api Unit} (hlive : s.Live i) (hask : s.service.procs i = .ask r next) :
    NoPut v r := by
  have honly := hinv.spares v i hlive ?_
  · rw [hask] at honly
    exact honly.1
  · rintro n rfl hmounts
    have hfinished := h n hlive hmounts
    rw [hask] at hfinished
    cases hfinished

theorem Vacant.proceeds (h : s.Vacant d v) (hinv : Inv d s) (hstep : Proceeds d s s') :
    s'.Vacant d v := by
  refine ⟨?_, h.2.proceeds hstep⟩
  rcases proceeds_cases hstep with ⟨t, hexits, rfl⟩ |
    ⟨i, r, next, x, t, log, hlive, hask, hperforms, -, rfl⟩
  · exact MountManager.mountOf_exits hexits h.1
  · exact MountManager.mountOf_performs (h.2.noPut hinv hlive hask) hperforms h.1

theorem Awaiting.proceeds (h : s.Awaiting d v n) (hinv : Inv d s) (hstep : Proceeds d s s') :
    s'.Awaiting d v n := by
  have hquiescent := h.quiescent.proceeds hstep
  rcases proceeds_cases hstep with ⟨t, hexits, rfl⟩ |
    ⟨i, r, next, x, t, log, hlive, hask, hperforms, hlog, rfl⟩
  · refine ⟨hquiescent, h.meets.rely (.single ⟨trivial, .inl hexits⟩), fun resp hmem => ?_⟩
    exact MountManager.mountOf_exits hexits (h.answered resp hmem)
  · have hnoPut := h.quiescent.noPut hinv hlive hask
    have hguard : Vacates v n i r s.service.shared := by
      by_cases hi : i = .request n
      · subst hi
        have hmeets := h.meets
        rw [hask] at hmeets
        exact (hmeets _ .refl trivial).1
      · exact ⟨hnoPut, fun _ hn => absurd hn hi⟩
    refine ⟨hquiescent, ?_, fun resp hmem => ?_⟩
    · by_cases hi : i = .request n
      · subst hi
        have hmeets := h.meets
        rw [hask] at hmeets
        simpa [Config.resume] using (hmeets _ .refl trivial).2 x t hperforms
      · have hrely : (vacating d v n).Rely (.request n) s.service.shared t :=
          .single ⟨trivial, .inr ⟨i, r, x, .inl hi, hguard, hperforms⟩⟩
        simpa [Config.resume, Ne.symm hi] using h.meets.rely hrely
    · apply MountManager.mountOf_performs hnoPut hperforms
      rcases hlog n _ hmem with hmem | ⟨hi, hr⟩
      · exact h.answered resp hmem
      · exact hguard.2 resp hi hr

end Proceeding

/-! ## What `csi-node` may do -/

abbrev Steps := Action → Daemons → Prop

def Steps.Meet (A C : Steps) : Prop := ∀ a s, A a s → C a s

/-- Unmounts are requested, and mounts without an unmounter taken down, only with
no Mount of the volume under way, the latter only with no entry at the service. -/
def CarefulUnmounts (d : Deployment) : Steps
  | .send (.unmount (some req)), s => s.Quiescent d req.volumeID
  | .forceUnmount v _, s => s.Vacant d v
  | _, _ => True

/-- Moreover, the error of a delegated unmount is only passed over when the
service has no entry. -/
def ThoroughUnmounts (d : Deployment) : Steps
  | .delegatedUnmountFailed v _, s => s.Vacant d v
  | a, s => CarefulUnmounts d a s

def Permitted (d : Deployment) (A : Steps) : Action → Daemons → Prop
  | .node (.store v volume), _ => volume.volumeId = v
  | .send call, _ => (∃ req, call = .mount (some req)) ∨ ∃ req, call = .unmount (some req)
  | .removeCacheDir v _, s => A.Meet (CarefulUnmounts d) → s.Vacant d v
  | .removeLocalSocket v _, s => A.Meet (CarefulUnmounts d) → s.Vacant d v
  | .reply (.nodeUnstageVolume req) (.ok _), s =>
    A.Meet (ThoroughUnmounts d) → s.Vacant d req.volumeId
  | _, _ => True

theorem ThoroughUnmounts.careful {d : Deployment} {A : Steps} (h : A.Meet (ThoroughUnmounts d)) :
    A.Meet (CarefulUnmounts d) := by
  intro a s ha
  have hthorough := h a s ha
  cases a with
  | delegatedUnmountFailed v err => trivial
  | _ => exact hthorough

section Preservation

variable {d : Deployment} {A : Steps} {v : String} {n : Nat} {s s' : Daemons}

theorem keeps_of_proceeds {P : Daemons → Prop}
    (hP : ∀ s s', Inv d s → Proceeds d s s' → P s → P s') (hinv : Inv d s) (hs : P s)
    (h : Relation.ReflTransGen (Proceeds d) s s') : Inv d s' ∧ P s' := by
  induction h with
  | refl => exact ⟨hinv, hs⟩
  | tail _ hstep ih => exact ⟨ih.1.proceeds hstep, hP _ _ ih.1 hstep ih.2⟩

theorem Inv.performs (h : Inv d s) {a : Action} {x : a.Value} (hperm : Permitted d A a s)
    (hx : s.Answers d a x) : Inv d (after a x s) := by
  unfold after
  split
  case h_1 v volume _ =>
    refine ⟨h.unsent, h.spares, h.answered, fun u w hw => ?_⟩
    by_cases huv : u = v
    · subst huv
      rw [AList.lookup_insert] at hw
      rw [← Option.some.inj hw]
      exact hperm
    · rw [AList.lookup_insert_ne huv] at hw
      exact h.named u w hw
  case h_2 v _ =>
    refine ⟨h.unsent, h.spares, h.answered, fun u w hw => ?_⟩
    by_cases huv : u = v
    · subst huv
      rw [AList.lookup_erase] at hw
      cases hw
    · rw [AList.lookup_erase_ne huv] at hw
      exact h.named u w hw
  case h_3 call n =>
    obtain ⟨hcall, hn⟩ := hx n rfl
    refine ⟨fun m hm => h.unsent m (fun hs => hm (.tail _ hs)), fun v i hlive hmounts => ?_,
      fun m y hmem => .tail _ (h.answered m y hmem), h.named⟩
    by_cases hi : i = .request n
    · subst hi
      change (s.service.procs (.request n)).Only (NoPut v)
      rw [h.unsent n hn, hcall]
      rcases hperm with ⟨req, rfl⟩ | ⟨req, rfl⟩
      · exact MountManager.noPut_serve (MountManager.noPut_mount fun hv =>
          hmounts n rfl ⟨req, hcall, hv⟩)
      · exact MountManager.noPut_serve MountManager.noPut_unmount
    · refine h.spares v i ?_ hmounts
      cases i with
      | request m =>
        rcases List.mem_cons.mp hlive with rfl | hmem
        · exact absurd rfl hi
        · exact hmem
      | waiter p => trivial
  case h_4 => exact h

end Preservation

def discipline (driver : Driver) (d : Deployment) (A : Steps) :
    Discipline PUnit Action Action.Value Daemons where
  toSystem := ((node driver d).under A).system
  inv := Inv d
  guard _ := Permitted d A
  quiet _ _ := False
  guard_of_quiet _ _ _ hquiet := hquiet.elim
  inv_performs := by
    rintro i a s x s' hinv hperm ⟨-, hx, rfl⟩
    exact hinv.performs hperm hx
  inv_env s s' hinv henv :=
    (keeps_of_proceeds (P := fun _ => True) (fun _ _ _ _ _ => trivial) hinv trivial henv).1

end ClusterState.NodeServer.Daemons
