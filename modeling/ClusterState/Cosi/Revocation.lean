import ClusterState.Cosi.Sidecar

/-! # Access dies with its object

`Add` lets the driver create the identity first and protects the access with a
finalizer afterwards, and `Update` revokes the account that it finds in the
status. The identity goes before the access does if the deletion of the access
comes at no time in between.
-/

namespace ClusterState.Cosi

open Concurrency

/-- Deletion is not requested for an access with an identity and without the
finalizer, no identity is created for an access that is gone or is going without
the finalizer, and the finalizer is not removed for a version without account
while there is an identity. -/
def CarefulSteps (d : Deployment) : Steps
  | .requestDeletion, s => s.identity = none ∨ ∃ o ∈ s.access, baFinalizer ∈ o.finalizers
  | .act (.createIdentity i), s => i.name = d.account →
      ∃ o ∈ s.access, o.deletionRequested = true → baFinalizer ∈ o.finalizers
  | .act (.updateBucketAccess b), s => b.accountID = "" → baFinalizer ∉ b.finalizers →
      (∃ o ∈ s.access, o.resourceVersion = b.resourceVersion) → s.identity = none
  | _, _ => True

def Deployment.Shows (d : Deployment) (accountID : String) : Prop :=
  accountID = "" ∨ accountID = d.account

structure Covered (d : Deployment) (s : State) : Prop where
  named : s.Named d
  access : ∀ o, s.access = some o → d.Shows o.accountID
  versions : ∀ v ∈ s.versions, d.Shows v.accountID
  gone : s.access = none → s.identity = none
  going : ∀ o, s.access = some o → o.deletionRequested = true → baFinalizer ∉ o.finalizers →
    s.identity = none

def Permits (d : Deployment) : Action → State → Prop
  | .updateBucketAccess b, s => b.accountID ≠ "" → baFinalizer ∉ b.finalizers → s.identity = none
  | .updateBucketAccessStatus b, _ => d.Shows b.accountID
  | _, _ => True

def Harmless : Action → Prop
  | .updateBucketAccess _ => False
  | .updateBucketAccessStatus _ => False
  | .updateIdentity _ => False
  | .createIdentity _ => False
  | _ => True

section Discipline

variable {d : Deployment} {s s' : State} {a : Action} {x : a.Value}

theorem permits_of_harmless (ha : Harmless a) : Permits d a s := by
  cases a with
  | updateBucketAccess b => exact ha.elim
  | updateBucketAccessStatus b => exact ha.elim
  | _ => trivial

theorem after_harmless (ha : Harmless a) : (s.after d a x).access = s.access ∧
    (s.after d a x).versions = s.versions ∧
    (s.identity = none → (s.after d a x).identity = none) := by
  unfold State.after
  split
  case h_4 => exact ha.elim
  case h_5 => exact ha.elim
  case h_6 => exact ha.elim
  case h_7 => exact ha.elim
  case h_9 => exact ⟨rfl, rfl, id⟩
  case h_8 =>
    split
    · exact ⟨rfl, rfl, fun _ => rfl⟩
    · exact ⟨rfl, rfl, id⟩
  all_goals split <;> exact ⟨rfl, rfl, id⟩

theorem Covered.setAccess {b : BucketAccess} (h : Covered d s) (hb : d.Is b)
    (hshows : d.Shows b.accountID)
    (hgoing : b.deletionRequested = true → baFinalizer ∉ b.finalizers → s.identity = none) :
    Covered d (s.setAccess b) where
  named := h.named.setAccess hb
  access o ho := by
    cases ho
    exact hshows
  versions v hv := by
    rcases List.mem_cons.mp hv with rfl | hv
    · exact hshows
    · exact h.versions v hv
  gone := nofun
  going o ho := by
    cases ho
    exact hgoing

theorem Covered.after (h : Covered d s) (hpermits : Permits d a s)
    (hallowed : CarefulSteps d (.act a) s) (hx : s.Answers d a x) : Covered d (s.after d a x) := by
  by_cases ha : Harmless a
  · obtain ⟨haccess, hversions, hidentity⟩ := after_harmless (d := d) (s := s) (x := x) ha
    exact ⟨h.named.after, fun o ho => h.access o (haccess ▸ ho),
      fun v hv => h.versions v (hversions ▸ hv), fun hnone => hidentity (h.gone (haccess ▸ hnone)),
      fun o ho hrequested hfinalizer =>
        hidentity (h.going o (haccess ▸ ho) hrequested hfinalizer)⟩
  cases a with
  | updateBucketAccess b =>
    simp only [State.after]
    split
    · rename_i o ho
      split
      · rename_i hmade
        obtain ⟨o', ho', hversion, -, -⟩ := hx hmade.2 hmade.1
        cases ho.symm.trans ho'
        refine h.setAccess hmade.2 (h.access o ho) fun hrequested hfinalizer => ?_
        by_cases haccount : b.accountID = ""
        · exact hallowed haccount hfinalizer ⟨o, ho, hversion⟩
        · exact hpermits haccount hfinalizer
      · exact h
    · exact h
  | updateBucketAccessStatus b =>
    simp only [State.after]
    split
    · rename_i o ho
      split
      · exact h.setAccess (h.named.access o ho) hpermits (h.going o ho)
      · exact h
    · exact h
  | updateIdentity i =>
    simp only [State.after]
    split
    · rename_i hmade
      have hidentity := hx hmade.2 hmade.1
      exact ⟨⟨h.named.access, h.named.versions⟩, h.access, h.versions,
        fun hnone => absurd (h.gone hnone) hidentity,
        fun o ho hrequested hfinalizer => absurd (h.going o ho hrequested hfinalizer) hidentity⟩
    · exact h
  | createIdentity i =>
    simp only [State.after]
    split
    · rename_i hmade
      obtain ⟨o, ho, hcovered⟩ := hallowed hmade.2
      refine ⟨⟨h.named.access, h.named.versions⟩, h.access, h.versions, fun hnone => ?_,
        fun o' ho' hrequested hfinalizer => ?_⟩
      · cases ho.symm.trans hnone
      · cases ho.symm.trans ho'
        exact absurd (hcovered hrequested) hfinalizer
    · exact h
  | _ => exact absurd trivial ha

theorem proceeds_identity {A : Steps} (h : s.Proceeds d A s') : s'.identity = s.identity := by
  cases h <;> rfl

theorem Covered.proceeds (h : Covered d s) (hstep : s.Proceeds d (CarefulSteps d) s') :
    Covered d s' := by
  cases hstep with
  | requestDeletion o hcurrent hallowed =>
    refine h.setAccess (h.named.access o hcurrent) (h.access o hcurrent) fun _ hfinalizer => ?_
    rcases hallowed with hnone | ⟨o', ho', hfinalizer'⟩
    · exact hnone
    · cases hcurrent.symm.trans ho'
      exact absurd hfinalizer' hfinalizer
  | remove o hcurrent hrequested hfinalizers =>
    refine ⟨⟨nofun, h.named.versions⟩, nofun, h.versions, fun _ => ?_, nofun⟩
    apply h.going o hcurrent hrequested
    rw [hfinalizers]
    exact List.not_mem_nil
  | edit o b hcurrent his hrequested hfinalizer hgranted haccount =>
    refine h.setAccess his (haccount ▸ h.access o hcurrent) fun hrequested' hfinalizer' => ?_
    exact h.going o hcurrent (hrequested.symm.trans hrequested') fun hmem =>
      hfinalizer' (hfinalizer.mpr hmem)
  | changeSecret secret => exact ⟨⟨h.named.access, h.named.versions⟩, h.access, h.versions, h.gone,
      h.going⟩

def revoking (d : Deployment) : Discipline PUnit Action Action.Value State where
  toSystem := system d (CarefulSteps d)
  inv := Covered d
  guard _ := Permits d
  quiet _ := Harmless
  guard_of_quiet _ _ _ := permits_of_harmless
  inv_performs := by
    rintro - a s x s' hinv hguard ⟨hallowed, hx, rfl⟩
    exact hinv.after hguard hallowed hx
  inv_env _ _ hinv hstep := hinv.proceeds hstep

theorem stable_revoked : (revoking d).Stable ⟨⟩ fun s => s.identity = none := by
  rintro s s' ⟨-, hstep | ⟨j, a, x, hquiet, -, -, -, rfl⟩⟩ hs
  · exact (proceeds_identity hstep).trans hs
  · exact (after_harmless (hquiet.resolve_left fun h => h rfl)).2.2 hs

end Discipline

/-! ## Add -/

def Free : Action → Prop
  | .updateBucketAccess _ => False
  | .updateBucketAccessStatus _ => False
  | _ => True

namespace Revoking

section Add

variable {d : Deployment} {s : State} {b : BucketAccess} {bucket : Bucket}
  {bucketAccessClass : BucketAccessClass} {l : BucketAccessListener}

theorem only_readS3Identity (user : String) : (readS3Identity user).Only Free := by
  refine (only_act (by trivial)).bind fun x => ?_
  match x with
  | .error err =>
    change Program.Only _ (if _ then _ else _)
    split <;> trivial
  | .ok .empty => trivial
  | .ok (.malformed err) => trivial
  | .ok (.encoded identity) => trivial

theorem only_chooseCredential (identity : Identity) (parameters : Parameters) :
    (chooseCredential identity parameters).Only Free := by
  unfold chooseCredential
  split
  · trivial
  · refine (only_act (by trivial)).bind fun x => ?_
    cases x with
    | error err => trivial
    | ok accessKey =>
      refine (only_act (by trivial)).bind fun y => ?_
      cases y <;> trivial

theorem only_saveS3Identity (identity : Identity) : (saveS3Identity identity).Only Free := by
  refine (only_act (by trivial)).bind fun x => ?_
  cases x with
  | ok _ => trivial
  | error err =>
    change Program.Only _ (if _ then _ else _)
    split
    · refine (only_act (by trivial)).bind fun y => ?_
      cases y <;> trivial
    · trivial

theorem permits_of_free {a : Action} (ha : Free a) : Permits d a s := by
  cases a with
  | updateBucketAccess b => exact ha.elim
  | updateBucketAccessStatus b => exact ha.elim
  | _ => trivial

theorem meets_free {α ε : Type} {m : Api ε α} (hm : m.Only Free) :
    (revoking d).Meets ⟨⟩ (fun _ _ => True) (fun _ _ => True) m s :=
  Discipline.Meets.of_permitted (hm.mono fun _ ha _ => permits_of_free ha)

theorem meets_grantAccount {p : ProvisionerServer} {req : GrantRequest} :
    (revoking d).Meets ⟨⟩ (fun rsp _ => rsp.accountId = req.name) (fun _ _ => True)
      (driverGrantBucketAccess p req) s := by
  unfold driverGrantBucketAccess
  split
  · trivial
  split
  · trivial
  refine (meets_free (only_readS3Identity _)).bind fun found t _ => ?_
  refine (meets_free (only_chooseCredential _ _)).bind fun credential t₁ _ => ?_
  exact (meets_free (only_saveS3Identity _)).bind fun _ t₂ _ => rfl

theorem meets_rpcGrant {p : ProvisionerServer} {req : GrantRequest} :
    (revoking d).Meets ⟨⟩ (fun r _ => ∀ rsp, r = .ok rsp → rsp.accountId = req.name)
      (fun _ _ => True) (rpc (driverGrantBucketAccess p req)) s := by
  intro t _ _
  refine ⟨trivial, fun x t' hperforms => ?_⟩
  cases x with
  | error status => exact nofun
  | ok _ =>
    refine (Discipline.Meets.outcome meets_grantAccount).bind fun result t₁ hresult => ?_
    intro t₂ _ _
    refine ⟨trivial, fun y t₃ hperforms => ?_⟩
    cases y with
    | error status => exact nofun
    | ok _ =>
      rintro rsp rfl
      rcases hresult with ⟨rsp', hrsp, haccount⟩ | ⟨status, hstatus, -⟩
      · cases hrsp
        exact haccount
      · cases hstatus

theorem meets_protectBucketAccess :
    (revoking d).Meets ⟨⟩ (fun _ _ => True) (fun _ _ => True) (protectBucketAccess b) s := by
  refine (meets_free (only_act (by trivial))).bind fun x t _ => meets_orThrow fun current _ => ?_
  split
  rename_i added finalizers hadd
  split
  · rename_i hadded
    rw [hadded] at hadd
    intro t₁ _ _
    refine ⟨fun _ hfinalizer => absurd (mem_of_addFinalizer hadd) hfinalizer, fun y t₂ _ => ?_⟩
    cases y <;> trivial
  · trivial

theorem meets_markBucketAccessGranted {accountID : String} (haccount : accountID = d.account) :
    (revoking d).Meets ⟨⟩ (fun _ _ => True) (fun _ _ => True)
      (markBucketAccessGranted b bucket accountID) s := by
  unfold markBucketAccessGranted
  split
  · trivial
  refine (meets_free (only_protectBucket (fun _ => trivial) (fun _ => trivial) _)).bind
    fun _ t _ => ?_
  refine meets_protectBucketAccess.bind fun current t₁ _ => ?_
  split
  · trivial
  · intro t₂ _ _
    refine ⟨.inr haccount, fun y t₃ _ => ?_⟩
    cases y <;> trivial

theorem accountName_eq (hb : d.Is b) : accountName b = d.account :=
  congrArg (accountNamePrefix ++ ·) hb.2.2.1

theorem meets_ensureGrant {secret : Secret} (hb : d.Is b) :
    (revoking d).Meets ⟨⟩ (fun _ _ => True) (fun _ _ => True)
      (ensureGrant l b bucketAccessClass bucket secret) s := by
  unfold ensureGrant
  split
  · trivial
  refine meets_rpcGrant.bind fun r t hr => ?_
  cases r with
  | error status =>
    change (revoking d).Meets _ _ _ (if _ then _ else _) _
    split
    · exact meets_markBucketAccessGranted (accountName_eq hb)
    · trivial
  | ok rsp =>
    apply meets_markBucketAccessGranted
    rw [orDefault, hr rsp rfl, ite_self]
    exact accountName_eq hb

theorem meets_mintCredentials (hb : d.Is b) :
    (revoking d).Meets ⟨⟩ (fun _ _ => True) (fun _ _ => True)
      (mintCredentials l b bucketAccessClass bucket) s := by
  unfold mintCredentials
  refine meets_rpcGrant.bind fun r t hr => ?_
  cases r with
  | error status =>
    change (revoking d).Meets _ _ _ (if _ then _ else _) _
    split <;> trivial
  | ok rsp =>
    have haccount : rsp.accountId = d.account := (hr rsp rfl).trans (accountName_eq hb)
    change (revoking d).Meets _ _ _ (if _ then _ else if _ then _ else _) _
    split
    · trivial
    split
    · trivial
    refine (meets_free (only_act (by trivial))).bind fun x t₁ _ => ?_
    cases x with
    | ok _ => exact meets_markBucketAccessGranted haccount
    | error err =>
      change (revoking d).Meets _ _ _ (if _ then _ else _) _
      split
      · exact meets_markBucketAccessGranted haccount
      · trivial

theorem meets_grantAccess (hb : d.Is b) :
    (revoking d).Meets ⟨⟩ (fun _ _ => True) (fun _ _ => True)
      (grantAccess l b bucketAccessClass bucket) s := by
  refine (meets_free (only_act (by trivial))).bind fun x t _ => ?_
  cases x with
  | ok secret => exact meets_ensureGrant hb
  | error err =>
    change (revoking d).Meets _ _ _ (if _ then _ else _) _
    split
    · exact meets_mintCredentials hb
    · trivial

theorem meets_add (hb : d.Is b) :
    (revoking d).Meets ⟨⟩ (fun _ _ => True) (fun _ _ => True) (add l b) s := by
  unfold add
  split
  · trivial
  refine (meets_free (only_act (by trivial))).bind fun _ _ _ => meets_orWrap fun bucketAccessClass _ => ?_
  split
  · trivial
  refine (meets_free (only_act (by trivial))).bind fun _ _ _ => meets_orWrap fun bucketClaim _ => ?_
  split
  · trivial
  split
  · trivial
  refine (meets_free (only_act (by trivial))).bind fun _ _ _ => meets_orWrap fun bucket _ => ?_
  split
  · trivial
  · exact meets_grantAccess hb

end Add

/-! ## Update -/

section Update

variable {d : Deployment} {s : State} {b : BucketAccess}

theorem meets_deleteS3Identity :
    (revoking d).Meets ⟨⟩ (fun _ t => t.identity = none) (fun status _ => status.Proper ∧ True)
      (deleteS3Identity d.account) s := by
  intro t _ _
  refine ⟨trivial, fun x t' hperforms => ?_⟩
  obtain ⟨-, hx, rfl⟩ := hperforms
  cases x with
  | ok _ => exact congrArg State.identity (if_pos ⟨rfl, rfl⟩)
  | error err =>
    change (revoking d).Meets _ _ _ (if _ then _ else _) _
    split
    · rename_i hreason
      have hnone : t.identity = none := hx rfl err rfl hreason
      exact (after_harmless (d := d) (s := t) (a := .deleteIdentity d.account)
        (x := .error err) trivial).2.2 hnone
    · exact ⟨⟨nofun, nofun⟩, trivial⟩

theorem meets_revokeAccount (hshows : d.Shows b.accountID) :
    (revoking d).Meets ⟨⟩ (fun _ t => b.accountID ≠ "" → t.identity = none) (fun _ _ => True)
      (revokeAccount b.accountID) s := by
  unfold revokeAccount
  split
  · rename_i haccount
    exact fun h => absurd haccount h
  · rename_i haccount
    obtain haccount' := hshows.resolve_left haccount
    have hhandler : ∀ t : State, True → (revoking d).Meets ⟨⟩ (fun _ t => t.identity = none)
        (fun status _ => status.Proper ∧ True) (driverRevokeBucketAccess b.accountID) t := by
      intro t _
      rw [driverRevokeBucketAccess, if_neg haccount, haccount']
      exact meets_deleteS3Identity
    have hrpc := meets_rpc (s := s) rfl trivial Discipline.Stable.const
      (fun _ : Unit => stable_revoked) (fun _ _ _ => trivial) trivial hhandler
    apply hrpc.bind
    rintro r t (⟨-, rfl, hnone⟩ | ⟨status, rfl, hproper, -⟩)
    · exact fun _ => hnone
    · change (revoking d).Meets _ _ _ (if _ then _ else _) _
      rw [if_neg hproper.1]
      trivial

theorem only_deleteSecretOf (objectNamespace : String) (secret : Secret) :
    (deleteSecretOf objectNamespace secret).Only Harmless := by
  unfold deleteSecretOf
  split
  rename_i removed finalizers _
  have hdelete : ∀ {next : Except ApiError Unit → Api String Unit}, next (.ok ()) = pure () →
      (∀ err, next (.error err) = if err.reason = .notFound then pure () else throw err.message) →
      (act (.deleteSecret objectNamespace secret.name) >>= next).Only Harmless := by
    intro next hok herror
    refine (only_act (by trivial)).bind fun x => ?_
    cases x with
    | ok _ =>
      rw [hok]
      trivial
    | error err =>
      rw [herror]
      split <;> trivial
  split
  · exact (only_act (by trivial)).bind fun x => (only_orThrow x).bind fun _ =>
      hdelete rfl fun _ => rfl
  · exact hdelete rfl fun _ => rfl

theorem meets_takeBack {secret : Secret} {objectNamespace : String} (hshows : d.Shows b.accountID) :
    (revoking d).Meets ⟨⟩ (fun _ _ => True) (fun _ _ => True) (do
      revokeAccount b.accountID
      deleteSecretOf objectNamespace secret
      unprotectBucketAccess b) s := by
  refine (meets_revokeAccount hshows).bind fun _ t ht => ?_
  have hstable : (revoking d).Stable ⟨⟩ fun t => b.accountID ≠ "" → t.identity = none :=
    fun t t' hstep h haccount => stable_revoked t t' hstep (h haccount)
  refine ((Discipline.Meets.of_only hstable (only_deleteSecretOf _ _) ht).mono (fun _ _ h => h)
    fun _ _ _ => trivial).bind fun _ t₁ ht₁ => ?_
  unfold unprotectBucketAccess
  split
  split
  · intro t₂ hrely _
    refine ⟨fun haccount _ => hstable.rely hrely ht₁ haccount, fun x t₃ _ => ?_⟩
    cases x <;> trivial
  · trivial

theorem meets_update (hshows : d.Shows b.accountID) :
    (revoking d).Meets ⟨⟩ (fun _ _ => True) (fun _ _ => True) (update b) s := by
  unfold update
  split
  · trivial
  unfold deleteBucketAccessOp
  refine (meets_free (only_act (by trivial))).bind fun x t _ => ?_
  cases x with
  | ok secret => exact meets_takeBack hshows
  | error err =>
    change (revoking d).Meets _ _ _ (if _ then _ else _) _
    split
    · exact meets_takeBack hshows
    · trivial

end Update

end Revoking

theorem sidecar_follows (d : Deployment) :
    (sidecar d (CarefulSteps d) Kind id).Follows (revoking d) where
  system_eq := rfl
  serves kind s _ := by
    intro t _ hinv
    refine ⟨trivial, fun b t' hperforms => ?_⟩
    obtain ⟨-, hx, rfl⟩ := hperforms
    have hhandle : (revoking d).Meets ⟨⟩ (fun _ _ => True) (fun _ _ => True)
        (handleEvent d kind b) t' := by
      cases kind with
      | add => exact Revoking.meets_add (hinv.named.versions b hx)
      | update => exact Revoking.meets_update (hinv.versions b hx)
    refine hhandle.attempt.bind fun result t₁ _ => ?_
    intro t₂ _ _
    exact ⟨trivial, fun _ _ _ => trivial⟩
  restarts _ h := h

/-! ## Runs -/

/-- How it begins: a new access without status, and no identity of its account. -/
structure Created (d : Deployment) (s : State) : Prop where
  access : ∃ b, d.Is b ∧ b.accountID = "" ∧ s.access = some b ∧ s.versions = [b]
  identity : s.identity = none

theorem Created.covered {d : Deployment} {s : State} (h : Created d s) : Covered d s := by
  obtain ⟨b, hb, haccount, haccess, hversions⟩ := h.access
  have hshows : d.Shows b.accountID := .inl haccount
  refine ⟨⟨fun o ho => ?_, fun v hv => ?_⟩, fun o ho => ?_, fun v hv => ?_, fun _ => h.identity,
    fun _ _ _ _ => h.identity⟩
  · rw [haccess] at ho
    cases ho
    exact hb
  · rw [hversions] at hv
    rw [List.mem_singleton.mp hv]
    exact hb
  · rw [haccess] at ho
    cases ho
    exact hshows
  · rw [hversions] at hv
    rw [List.mem_singleton.mp hv]
    exact hshows

end ClusterState.Cosi
