import ClusterState.NodeServer.Vacancy

/-! # What the handlers ask of the mount service

Handler by handler: `csi-node` takes the steps that it may, and a volume that it removes
the traces of is vacant.
-/

namespace ClusterState.NodeServer.Daemons

open Concurrency

open MountManager (Deployment NoPut vacating Vacates)

section Handlers

variable {driver : Driver} {d : Deployment} {A : Steps} {v : String} {s : Daemons}

def Conducts (driver : Driver) (d : Deployment) (A : Steps) {α : Type} (K : α → Prop) (p : Csi α) :
    Prop :=
  ∀ s, (discipline driver d A).Meets ⟨⟩ (fun a _ => K a) (fun _ _ => True) p s

theorem Conducts.bind {α β : Type} {K : α → Prop} {K' : β → Prop} {m : Csi α} {f : α → Csi β}
    (hm : Conducts driver d A K m) (hf : ∀ a, K a → Conducts driver d A K' (f a)) :
    Conducts driver d A K' (m >>= f) :=
  fun s => (hm s).bind fun a t ha => hf a ha t

theorem Conducts.mono {α : Type} {K K' : α → Prop} {m : Csi α} (hm : Conducts driver d A K m)
    (h : ∀ a, K a → K' a) : Conducts driver d A K' m :=
  fun s => (hm s).mono (fun a _ => h a) fun _ _ => id

theorem conducts_act {a : Action} (ha : ∀ s, Permitted d A a s) :
    Conducts driver d A (fun _ => True) (act a) :=
  fun _ t _ _ => ⟨ha t, fun _ _ _ => trivial⟩

theorem rely_vacant {t : Daemons} (h : (discipline driver d A).Rely ⟨⟩ s t) (hs : s.Vacant d v) :
    t.Vacant d v := by
  refine Discipline.Stable.rely ?_ h hs
  rintro s s' ⟨hinv, henv | ⟨j, a, x, hj, -, -⟩⟩ hs
  · exact (keeps_of_proceeds (fun _ _ hinv hstep h => h.proceeds hinv hstep) hinv hs henv).2
  · exact absurd hj (by simp [discipline])

theorem rely_awaiting {n : Nat} {t : Daemons} (h : (discipline driver d A).Rely ⟨⟩ s t)
    (hs : s.Awaiting d v n) : t.Awaiting d v n := by
  refine Discipline.Stable.rely ?_ h hs
  rintro s s' ⟨hinv, henv | ⟨j, a, x, hj, -, -⟩⟩ hs
  · exact (keeps_of_proceeds (fun _ _ hinv hstep h => h.proceeds hinv hstep) hinv hs henv).2
  · exact absurd hj (by simp [discipline])

theorem conducts_doPost {call : MountManager.Call}
    (hcall : (∃ req, call = .mount (some req)) ∨ ∃ req, call = .unmount (some req)) :
    Conducts driver d A (fun _ => True) (doPost call) := by
  have hsend : Conducts driver d A (fun _ => True) (act (.send call)) := conducts_act fun _ => hcall
  refine hsend.bind fun x _ => ?_
  cases x with
  | error err => exact fun _ => trivial
  | ok n => exact conducts_act fun _ => trivial

/-- An Unmount that succeeds leaves the volume vacant. -/
theorem meets_doPost_unmount (s : Daemons) : (discipline driver d A).Meets ⟨⟩
    (fun x t => ∀ resp, x = .ok resp → A.Meet (CarefulUnmounts d) → t.Vacant d v)
    (fun _ _ => True) (doPost (.unmount (some ⟨v⟩))) s := by
  refine fun t _ hinv => ⟨.inr ⟨⟨v⟩, rfl⟩, fun x t' hperforms => ?_⟩
  obtain ⟨hallowed, hx, rfl⟩ := hperforms
  cases x with
  | error err => exact nofun
  | ok n =>
    obtain ⟨hcall, hn⟩ := hx n rfl
    intro t₁ hrely _
    refine ⟨trivial, fun y t₂ hperforms => ?_⟩
    obtain ⟨-, hy, rfl⟩ := hperforms
    rintro resp rfl hcareful
    have hquiescent : t.Quiescent d v := hcareful _ t hallowed
    have hawaiting : (after (.send (.unmount (some ⟨v⟩))) (.ok n) t).Awaiting d v n := by
      refine ⟨?_, ?_, fun resp hmem => absurd (hinv.answered n _ hmem) hn⟩
      · intro m hm hmounts
        rcases List.mem_cons.mp hm with rfl | hm
        · obtain ⟨req, hreq, -⟩ := hmounts
          rw [hcall] at hreq
          cases hreq
        · exact hquiescent m hm hmounts
      · change (vacating d v n).Meets _ _ _ (t.service.procs (.request n)) _
        rw [hinv.unsent n hn, hcall]
        exact MountManager.meets_serve_unmount ⟨v⟩ _
    have hawaited := rely_awaiting hrely hawaiting
    rcases hy with ⟨err, herr⟩ | hmem
    · cases herr
    · exact ⟨hawaited.answered resp hmem, hawaited.quiescent⟩

theorem meets_cleanupVolumeResources (hs : A.Meet (CarefulUnmounts d) → s.Vacant d v) :
    (discipline driver d A).Meets ⟨⟩ (fun _ t => A.Meet (CarefulUnmounts d) → t.Vacant d v)
      (fun _ _ => True) (cleanupVolumeResources driver v) s := by
  intro t hrely _
  have ht := fun hcareful => rely_vacant hrely (hs hcareful)
  refine ⟨ht, fun _ t' hperforms => ?_⟩
  obtain ⟨-, -, rfl⟩ := hperforms
  intro t₁ hrely₁ _
  have ht₁ := fun hcareful => rely_vacant hrely₁ (ht hcareful)
  refine ⟨ht₁, fun _ t₂ hperforms => ?_⟩
  obtain ⟨-, -, rfl⟩ := hperforms
  exact ht₁

theorem meets_volumeUnstage (volume : Volume) (path : String) (s : Daemons) :
    (discipline driver d A).Meets ⟨⟩
      (fun x t => x = .ok () → A.Meet (CarefulUnmounts d) → t.Vacant d volume.volumeId)
      (fun _ _ => True) (volumeUnstage driver volume path) s := by
  have hcleanup : ∀ {t : Daemons}, (A.Meet (CarefulUnmounts d) → t.Vacant d volume.volumeId) →
      (discipline driver d A).Meets ⟨⟩
        (fun x t => x = .ok () → A.Meet (CarefulUnmounts d) → t.Vacant d volume.volumeId)
        (fun _ _ => True) (cleanupVolumeResources driver volume.volumeId) t :=
    fun ht => (meets_cleanupVolumeResources ht).mono (fun _ _ h _ => h) fun _ _ => id
  unfold volumeUnstage
  split
  · refine (meets_doPost_unmount s).bind fun x t hx => ?_
    cases x with
    | error err => exact nofun
    | ok resp =>
      intro t₁ hrely _
      have ht₁ := fun hcareful => rely_vacant hrely (hx resp rfl hcareful)
      refine ⟨trivial, fun removed t₂ hperforms => ?_⟩
      obtain ⟨-, -, rfl⟩ := hperforms
      cases removed with
      | error err => exact nofun
      | ok _ => exact hcleanup ht₁
  · intro t _ _
    refine ⟨trivial, fun cleaned t₂ hperforms => ?_⟩
    obtain ⟨hallowed, -, rfl⟩ := hperforms
    cases cleaned with
    | error err => exact nofun
    | ok _ => exact hcleanup fun hcareful => hcareful _ _ hallowed

theorem meets_delegateUnmount (s : Daemons) : (discipline driver d A).Meets ⟨⟩
    (fun _ t => A.Meet (ThoroughUnmounts d) → t.Vacant d v) (fun _ _ => True)
    (delegateUnmount v : Csi (Except String Unit)) s := by
  have hfailed : ∀ err t, (discipline driver d A).Meets ⟨⟩
      (fun _ t => A.Meet (ThoroughUnmounts d) → t.Vacant d v) (fun _ _ => True)
      (act (.delegatedUnmountFailed v err) >>= fun _ => pure (Except.error err : Except String Unit)) t := by
    intro err t t₁ _ _
    refine ⟨trivial, fun _ t₂ hperforms hthorough => ?_⟩
    obtain ⟨hallowed, -, rfl⟩ := hperforms
    exact hthorough _ _ hallowed
  intro t _ _
  refine ⟨trivial, fun client t₁ hperforms => ?_⟩
  cases client with
  | error err => exact hfailed err t₁
  | ok _ =>
    refine (meets_doPost_unmount t₁).bind fun x t₂ hx => ?_
    cases x with
    | error err => exact hfailed err t₂
    | ok resp => exact fun hthorough => hx resp rfl (ThoroughUnmounts.careful hthorough)

theorem conducts_mounterMount {path : String} :
    Conducts driver d A (fun _ => True) (mounterMount driver v path) := by
  unfold mounterMount
  split
  · exact fun _ => trivial
  · refine (conducts_act (a := .buildMountArgs v path) fun _ => trivial).bind fun args _ => ?_
    cases args with
    | error err => exact fun _ => trivial
    | ok args =>
      refine (conducts_doPost (.inl ⟨_, rfl⟩)).bind fun x _ => ?_
      cases x <;> exact fun _ => trivial

theorem conducts_volumeStage {path : String} :
    Conducts driver d A (fun _ => True) (volumeStage driver v path) := by
  refine (conducts_act (a := .checkMount path) fun _ => trivial).bind fun isMnt _ => ?_
  match isMnt with
  | .error err => exact fun _ => trivial
  | .ok false => exact conducts_mounterMount
  | .ok true =>
    exact (conducts_act (a := .unmountPath path) fun _ => trivial).bind fun _ _ =>
      conducts_mounterMount

theorem conducts_carryOut {o : Operation}
    (ho : ∀ u volume, o = .store u volume → volume.volumeId = u) :
    Conducts driver d A (fun _ => True) (carryOut driver (.own o)) := by
  cases o with
  | stage v path => exact conducts_volumeStage
  | unstage volume path =>
    exact fun s => (meets_volumeUnstage volume path s).mono (fun _ _ _ => trivial) fun _ _ => id
  | delegateUnmountToService v =>
    exact fun s => (meets_delegateUnmount s).mono (fun _ _ _ => trivial) fun _ _ => id
  | store u volume => exact conducts_act fun _ => ho u volume rfl
  | _ => exact conducts_act fun _ => trivial

theorem returns_carryOut (r : Request) : (carryOut driver r).Returns := by
  have hpost : ∀ call, (doPost call).Returns := by
    intro call x
    cases x with
    | error err => trivial
    | ok n => exact fun _ => trivial
  have hcleanup : ∀ v, (cleanupVolumeResources driver v).Returns := fun v _ _ => trivial
  have hmount : ∀ v path, (mounterMount driver v path).Returns := by
    intro v path
    unfold mounterMount
    split
    · trivial
    · intro args
      cases args with
      | error err => trivial
      | ok args =>
        refine (hpost _).bind fun x => ?_
        cases x <;> trivial
  cases r with
  | own o =>
    cases o with
    | stage v path =>
      intro isMnt
      match isMnt with
      | .error err => trivial
      | .ok false => exact hmount v path
      | .ok true => exact fun _ => hmount v path
    | unstage volume path =>
      change (volumeUnstage driver volume path).Returns
      unfold volumeUnstage
      split
      · refine (hpost _).bind fun x => ?_
        cases x with
        | error err => trivial
        | ok resp =>
          intro removed
          cases removed with
          | error err => trivial
          | ok _ => exact hcleanup _
      · intro cleaned
        cases cleaned with
        | error err => trivial
        | ok _ => exact hcleanup _
    | delegateUnmountToService v =>
      intro client
      cases client with
      | error err => exact fun _ => trivial
      | ok _ =>
        refine (hpost _).bind fun x => ?_
        cases x with
        | error err => exact fun _ => trivial
        | ok resp => trivial
    | _ => exact fun _ => trivial
  | _ => trivial

def Serves (driver : Driver) (d : Deployment) (A : Steps) {α : Type} (K : α → Prop) (p : Api α) :
    Prop :=
  Conducts driver d A K (p.interp (carryOut driver))

theorem Serves.bind {α β : Type} {K : α → Prop} {K' : β → Prop} {m : Api α} {f : α → Api β}
    (hm : Serves driver d A K m) (hf : ∀ a, K a → Serves driver d A K' (f a)) :
    Serves driver d A K' (m >>= f) := by
  unfold Serves
  rw [Program.interp_bind]
  exact Conducts.bind hm hf

theorem serves_pure {α : Type} {K : α → Prop} {a : α} (ha : K a) :
    Serves driver d A K (pure a) := fun _ => ha

theorem serves_throw {α : Type} {K : α → Prop} {e : Status} :
    Serves driver d A K (throw e : Api α) := fun _ => trivial

theorem serves_perform_bind {α : Type} {K : α → Prop} {o : Operation} {f : o.Value → Api α}
    (ho : ∀ u volume, o = .store u volume → volume.volumeId = u)
    (hf : ∀ x, Serves driver d A K (f x)) : Serves driver d A K (perform o >>= f) :=
  Conducts.bind (conducts_carryOut ho) fun x _ => hf x

theorem serves_perform {o : Operation}
    (ho : ∀ u volume, o = .store u volume → volume.volumeId = u) :
    Serves driver d A (fun _ => True) (perform o) :=
  Conducts.bind (conducts_carryOut ho) fun _ _ _ => trivial

theorem serves_store {volume : Volume} (hv : volume.volumeId = v) :
    Serves driver d A (fun _ => True) (perform (.store v volume)) := by
  refine serves_perform fun u w h => ?_
  cases h
  exact hv

def Named (v : String) (r : Except StageError Volume) : Prop :=
  ∀ volume, r = .ok volume → volume.volumeId = v

theorem serves_unstageFailed {volume : Volume} {text : String} :
    Serves driver d A (Named v) (unstageFailed volume text) :=
  serves_perform_bind nofun fun _ => serves_pure nofun

theorem serves_applyQuota {volume : Volume} (hv : volume.volumeId = v) :
    Serves driver d A (Named v) (applyQuota volume) := by
  have hvolume : Named v (.ok volume) := fun w hw => (Except.ok.inj hw) ▸ hv
  refine serves_perform_bind nofun fun capacity => ?_
  cases capacity with
  | error err => exact serves_pure hvolume
  | ok capacity =>
    refine serves_perform_bind nofun fun applied => ?_
    cases applied with
    | error err => exact serves_unstageFailed
    | ok _ => exact serves_pure hvolume

theorem serves_finishStaging {volume : Volume} {volContext : VolumeContext} {readOnly : Bool}
    (hv : volume.volumeId = v) :
    Serves driver d A (Named v) (finishStaging volume volContext readOnly) := by
  cases readOnly with
  | true => exact serves_applyQuota hv
  | false =>
    refine serves_perform_bind nofun fun owned => ?_
    cases owned with
    | error err => exact serves_unstageFailed
    | ok _ =>
      refine serves_perform_bind nofun fun owned => ?_
      cases owned with
      | error err => exact serves_unstageFailed
      | ok _ => exact serves_applyQuota hv

theorem serves_stageNewVolume {path : String} {volContext : VolumeContext} {readOnly : Bool} :
    Serves driver d A (Named v) (stageNewVolume v path volContext readOnly) := by
  refine serves_perform_bind nofun fun mounter => ?_
  cases mounter with
  | error err => exact serves_pure nofun
  | ok _ =>
    refine serves_perform_bind nofun fun staged => ?_
    cases staged with
    | error err => exact serves_pure nofun
    | ok _ => exact serves_finishStaging rfl

theorem serves_dropMutex {α : Type} {K : α → Prop} {status : Status} :
    Serves driver d A K (dropMutex v status) :=
  serves_perform_bind nofun fun _ => serves_throw

theorem serves_stageFresh (req : NodeStageVolumeRequest) :
    Serves driver d A (fun _ => True) (stageFresh req) := by
  refine serves_stageNewVolume.bind fun staged hstaged => ?_
  cases staged with
  | error err => exact serves_dropMutex
  | ok volume => exact serves_store (hstaged volume rfl)

theorem serves_stageLocked (req : NodeStageVolumeRequest) :
    Serves driver d A (fun _ => True) (stageLocked req) := by
  refine serves_perform_bind nofun fun volume => ?_
  cases volume with
  | some volume => exact serves_pure trivial
  | none =>
    refine serves_perform_bind nofun fun healthy => ?_
    cases healthy with
    | true => exact serves_store rfl
    | false =>
      refine serves_perform_bind nofun fun stale => ?_
      cases stale with
      | false => exact serves_stageFresh req
      | true =>
        refine serves_perform_bind nofun fun cleaned => ?_
        cases cleaned with
        | error err => exact serves_dropMutex
        | ok _ => exact serves_stageFresh req

theorem serves_selfHeal (req : NodePublishVolumeRequest) :
    Serves driver d A (fun _ => True) (selfHeal req) := by
  refine serves_perform_bind nofun fun healthy => ?_
  cases healthy with
  | true => exact serves_store rfl
  | false =>
    refine serves_perform_bind nofun fun cleaned => ?_
    cases cleaned with
    | error err => exact serves_dropMutex
    | ok _ =>
      refine serves_stageNewVolume.bind fun staged hstaged => ?_
      cases staged with
      | error err => exact serves_dropMutex
      | ok volume => exact serves_store (hstaged volume rfl)

theorem serves_publishStaged (req : NodePublishVolumeRequest) :
    Serves driver d A (fun _ => True) (publishStaged req) := by
  refine serves_perform_bind nofun fun published => ?_
  cases published with
  | error err => exact serves_throw
  | ok _ => exact serves_pure trivial

theorem serves_publishLocked (req : NodePublishVolumeRequest) :
    Serves driver d A (fun _ => True) (publishLocked req) := by
  have hheal : Serves driver d A (fun _ => True) (selfHeal req >>= fun _ => publishStaged req) :=
    (serves_selfHeal req).bind fun _ _ => serves_publishStaged req
  refine serves_perform_bind nofun fun volume => ?_
  cases volume with
  | none => exact hheal
  | some volume =>
    refine serves_perform_bind nofun fun healthy => ?_
    cases healthy with
    | true => exact serves_publishStaged req
    | false => exact serves_perform_bind nofun fun _ => hheal

theorem serves_unpublishLocked (req : NodeUnpublishVolumeRequest) :
    Serves driver d A (fun _ => True) (unpublishLocked req) := by
  refine serves_perform_bind nofun fun volume => ?_
  cases volume with
  | none => exact serves_perform_bind nofun fun _ => serves_pure trivial
  | some volume =>
    refine serves_perform_bind nofun fun unpublished => ?_
    cases unpublished with
    | error err => exact serves_throw
    | ok _ => exact serves_pure trivial

theorem serves_expandLocked (req : NodeExpandVolumeRequest) :
    Serves driver d A (fun _ => True) (expandLocked req) := by
  refine serves_perform_bind nofun fun volume => ?_
  cases volume with
  | none => exact serves_pure trivial
  | some volume =>
    refine serves_perform_bind nofun fun applied => ?_
    cases applied with
    | error err => exact serves_throw
    | ok _ => exact serves_pure trivial

end Handlers

end ClusterState.NodeServer.Daemons
