import ClusterState.Cosi.Binding

/-! # Calls that keep to the rules

Every request of the listener is made under a condition that does not go away again, so
that it holds whatever other calls and other users do in the meantime.
-/

namespace ClusterState.Cosi.Provisioning

open Concurrency

section Rules

variable {s t : Cluster} {l : BucketListener} {known creatable : Bucket → Prop}

theorem Cluster.Inv.proceeds (h : s.Inv) (hstep : s.Proceeds creatable t) : t.Inv := by
  cases hstep with
  | createBucket b hfree hcreatable hlive hready hfinalizer =>
    exact h.putBucket fun hready' => absurd (hready.symm.trans hready') Bool.false_ne_true
  | editBucket o b hcurrent hrequested hready hbucketID hfinalizer =>
    refine h.putBucket fun hready' => ?_
    have hname : o.name = b.name := h.buckets.key_eq _ o hcurrent
    have hbacked := h.backed o (h.buckets.mem _ o hcurrent) (hready.symm.trans hready')
    rwa [Backed, ← hname, hbucketID]
  | requestDeletion o name hcurrent => exact h.putBucket (h.backed o (h.buckets.mem _ o hcurrent))
  | removeBucket o hcurrent hrequested hfinalizers =>
    exact ⟨h.buckets.remove, h.claims, h.backed, h.provisioned, h.released, h.releasedClaims⟩
  | createClaim k hfree huid hbound hready =>
    exact h.putClaim (h.claims.create huid hbound)
      fun hready' => absurd (hready.symm.trans hready') Bool.false_ne_true
  | editClaim o k hcurrent huid hready hbound =>
    refine h.putClaim (h.claims.edit hcurrent huid (hbound.imp_right And.left)) fun hready' => ?_
    have href : o.ref = k.ref := h.claims.coherent.key_eq _ o hcurrent
    have hmem := h.claims.coherent.mem _ o hcurrent
    rcases hbound with hname | ⟨-, hnot⟩
    · have hprovisioned := h.provisioned o hmem (hready.symm.trans hready')
      rwa [Provisioned, ← href, hname]
    · exact absurd (hnot.symm.trans (hready.symm.trans hready')) Bool.false_ne_true
  | removeClaim ref =>
    exact ⟨h.buckets, h.claims.remove, h.backed, h.provisioned, h.released, h.releasedClaims⟩

theorem Cluster.Proceeds.grows (hstep : s.Proceeds creatable t) : s.Grows t := by
  cases hstep with
  | createBucket => exact .putBucket
  | editBucket => exact .putBucket
  | requestDeletion => exact .putBucket
  | removeBucket => exact ⟨fun _ h => h, fun _ h => h, fun _ h => h, fun _ h => h⟩
  | createClaim => exact .putClaim
  | editClaim => exact .putClaim
  | removeClaim => exact ⟨fun _ h => h, fun _ h => h, fun _ h => h, fun _ h => h⟩

def Unready (known : Bucket → Prop) (s : Cluster) (name : String) : Prop :=
  ∃ u ∈ s.buckets.versions, known u ∧ u.name = name ∧ u.bucketReady = false

theorem Unready.grows {name : String} (hgrows : s.Grows t) (h : Unready known s name) :
    Unready known t name := by
  obtain ⟨u, hu, h⟩ := h
  exact ⟨u, hgrows.buckets u hu, h⟩

def Permits (known : Bucket → Prop) (l : BucketListener) : Action → Cluster → Prop
  | .driverDeleteBucket id, s => ∃ v ∈ s.buckets.versions, known v ∧ Doomed l v ∧ v.bucketID = id
  | .updateBucket b, s => ∃ v ∈ s.buckets.versions, ∃ finalizers, b = { v with finalizers } ∧
      (Loses bucketFinalizer v.finalizers finalizers → Told s l v) ∧
      (bucketFinalizer ∈ finalizers → bucketFinalizer ∈ v.finalizers ∨ Unready known s v.name)
  | .updateBucketStatus b, s => b.bucketReady = true ∧ Backed s b ∧ Unready known s b.name
  | .updateBucketClaim k, s => ∃ v ∈ s.claims.versions, v.ref = k.ref ∧
      v.resourceVersion = k.resourceVersion ∧ ToldOf s l k
  | .updateBucketClaimStatus k, s => ∃ v ∈ s.claims.versions, v.ref = k.ref ∧
      v.resourceVersion = k.resourceVersion ∧ (k.bucketName = v.bucketName ∨ v.bucketName = "") ∧
      Provisioned s k
  | _, _ => True

theorem performs_grows {a : Action} {x : a.Value} (h : performs known l a s x t) : s.Grows t := by
  cases a with
  | event =>
    obtain ⟨-, -, rfl⟩ := h
    exact .refl
  | driverCreateBucket name parameters =>
    obtain ⟨ids, -, rfl⟩ := h
    exact .store
  | driverDeleteBucket id =>
    obtain ⟨-, rfl | ⟨-, rfl⟩⟩ := h
    · exact .destroy
    · exact .refl
  | getBucket name =>
    obtain ⟨-, rfl⟩ := h
    exact .refl
  | updateBucket b =>
    simp only [performs] at h
    split at h
    · obtain ⟨o, -, -, -, rfl⟩ := h
      exact .updateBucket
    · exact h ▸ .refl
  | updateBucketStatus b =>
    simp only [performs] at h
    split at h
    · obtain ⟨o, -, -, -, rfl⟩ := h
      exact .putBucket
    · exact h ▸ .refl
  | getBucketClaim ref =>
    obtain ⟨-, rfl⟩ := h
    exact .refl
  | updateBucketClaim k =>
    simp only [performs] at h
    split at h
    · obtain ⟨o, -, -, rfl⟩ := h
      exact .updateClaim
    · exact h ▸ .refl
  | updateBucketClaimStatus k =>
    simp only [performs] at h
    split at h
    · obtain ⟨o, -, -, rfl⟩ := h
      exact .putClaim
    · exact h ▸ .refl
  | listBucketAccesses objectNamespace => exact h ▸ .refl
  | deleteBucketAccess objectNamespace name => exact h ▸ .refl

theorem Cluster.Inv.performs_updateBucket (hinv : s.Inv) {b : Bucket} {x : Except ApiError Unit}
    (hpermits : Permits known l (.updateBucket b) s) (h : performs known l (.updateBucket b) s x t) :
    t.Inv := by
  simp only [performs] at h
  split at h
  · obtain ⟨v, hv, finalizers, rfl, htold, -⟩ := hpermits
    obtain ⟨o, hcurrent, hversion, -, rfl⟩ := h
    obtain rfl := hinv.buckets.eq_of_version hcurrent hv hversion
    exact hinv.updateBucket hv htold
  · exact h ▸ hinv

theorem Cluster.Inv.performs_updateBucketStatus (hinv : s.Inv) {b : Bucket}
    {x : Except ApiError Bucket} (hpermits : Permits known l (.updateBucketStatus b) s)
    (h : performs known l (.updateBucketStatus b) s x t) : t.Inv := by
  simp only [performs] at h
  split at h
  · obtain ⟨o, hcurrent, -, -, rfl⟩ := h
    have hname : o.name = b.name := hinv.buckets.key_eq _ o hcurrent
    refine hinv.putBucket fun _ => ?_
    have hbacked := hpermits.2.1
    rwa [Backed, ← hname] at hbacked
  · exact h ▸ hinv

theorem Cluster.Inv.performs_updateBucketClaim (hinv : s.Inv) {k : BucketClaim}
    {x : Except ApiError Unit} (hpermits : Permits known l (.updateBucketClaim k) s)
    (h : performs known l (.updateBucketClaim k) s x t) : t.Inv := by
  simp only [performs] at h
  split at h
  · obtain ⟨o, hcurrent, -, rfl⟩ := h
    obtain ⟨v, -, -, -, htold⟩ := hpermits
    have href : o.ref = k.ref := hinv.claims.coherent.key_eq _ o hcurrent
    refine hinv.updateClaim hcurrent fun _ => ?_
    rwa [ToldOf, href]
  · exact h ▸ hinv

theorem Cluster.Inv.performs_updateBucketClaimStatus (hinv : s.Inv) {k : BucketClaim}
    {x : Except ApiError Unit} (hpermits : Permits known l (.updateBucketClaimStatus k) s)
    (h : performs known l (.updateBucketClaimStatus k) s x t) : t.Inv := by
  simp only [performs] at h
  split at h
  · obtain ⟨o, hcurrent, hversion, rfl⟩ := h
    obtain ⟨v, hv, -, hversion', hname, hprovisioned⟩ := hpermits
    obtain rfl := hinv.claims.coherent.eq_of_version hcurrent hv (hversion.trans hversion'.symm)
    have href : o.ref = k.ref := hinv.claims.coherent.key_eq _ o hcurrent
    have hcurrent' : s.claims.current o.ref = some o := by
      rw [href]
      exact hcurrent
    refine hinv.putClaim (hinv.claims.edit (k := o.statusUpdated k) hcurrent' rfl hname) fun _ => ?_
    rwa [Provisioned, ← href] at hprovisioned
  · exact h ▸ hinv

theorem Cluster.Inv.performed (hinv : s.Inv) {a : Action} {x : a.Value} (hpermits : Permits known l a s)
    (h : performs known l a s x t) : t.Inv := by
  cases a with
  | event =>
    obtain ⟨-, -, rfl⟩ := h
    exact hinv
  | driverCreateBucket name parameters =>
    obtain ⟨ids, -, rfl⟩ := h
    exact hinv.store
  | driverDeleteBucket id =>
    obtain ⟨-, rfl | ⟨-, rfl⟩⟩ := h
    · exact hinv.destroy
    · exact hinv
  | getBucket name =>
    obtain ⟨-, rfl⟩ := h
    exact hinv
  | updateBucket b => exact hinv.performs_updateBucket hpermits h
  | updateBucketStatus b => exact hinv.performs_updateBucketStatus hpermits h
  | getBucketClaim ref =>
    obtain ⟨-, rfl⟩ := h
    exact hinv
  | updateBucketClaim k => exact hinv.performs_updateBucketClaim hpermits h
  | updateBucketClaimStatus k => exact hinv.performs_updateBucketClaimStatus hpermits h
  | listBucketAccesses objectNamespace => exact h ▸ hinv
  | deleteBucketAccess objectNamespace name => exact h ▸ hinv

end Rules

def rules (d : Deployment) : Discipline d.Pid Action Action.Value Cluster where
  toSystem := d.system
  inv := Cluster.Inv
  guard i := Permits d.known (d.listener i)
  quiet _ _ := False
  guard_of_quiet _ _ _ h := h.elim
  inv_performs _ _ _ _ _ hinv hpermits h := hinv.performed hpermits h
  inv_env _ _ hinv hstep := hinv.proceeds hstep

/-! ## Answers -/

def Tells (known : Bucket → Prop) (s : Cluster) (l : BucketListener) :
    (a : Action) → a.Value → Prop
  | .event, x => x ∈ s.buckets.versions ∧ known x
  | .driverCreateBucket _ _, x => ∀ id, x.1 = some id → id ≠ "" →
      (∀ err, x.2 = some err → err.code = .alreadyExists) → ⟨l.driverName, id⟩ ∈ s.made
  | .driverDeleteBucket id, x => (∀ err, x = some err → err.code = .notFound) →
      ⟨l.driverName, id⟩ ∈ s.gone
  | .getBucket name, x => ∀ b, x = .ok b → b ∈ s.buckets.versions ∧ b.name = name
  | .updateBucketStatus b, x => ∀ u, x = .ok u → u ∈ s.buckets.versions ∧ u.name = b.name ∧
      u.bucketReady = b.bucketReady
  | .getBucketClaim ref, x => ∀ k, x = .ok k → k ∈ s.claims.versions ∧ k.ref = ref
  | _, _ => True

section Asking

variable {d : Deployment} {i : d.Pid} {s t : Cluster} {l : BucketListener} {known : Bucket → Prop}
  {α β : Type} {Q : α → Cluster → Prop} {E : String → Cluster → Prop}

theorem Cluster.Inv.tells (hinv : s.Inv) {a : Action} {x : a.Value} (h : performs known l a s x t) :
    Tells known t l a x := by
  cases a with
  | event =>
    obtain ⟨hmem, hknown, rfl⟩ := h
    exact ⟨hmem, hknown⟩
  | driverCreateBucket name parameters =>
    obtain ⟨ids, hids, rfl⟩ := h
    exact fun id hid hne hexists => List.mem_append_left _ (hids id hid hne hexists)
  | driverDeleteBucket id =>
    obtain ⟨-, rfl | ⟨⟨err, herr, hne⟩, -⟩⟩ := h
    · exact fun _ => List.mem_cons_self
    · exact fun hall => absurd (hall err herr) hne
  | getBucket name =>
    obtain ⟨hfinds, rfl⟩ := h
    rintro b rfl
    exact ⟨hinv.buckets.mem name b hfinds, hinv.buckets.key_eq name b hfinds⟩
  | updateBucketStatus b =>
    rintro u rfl
    obtain ⟨o, hcurrent, -, hupdated, rfl⟩ := h
    rw [hupdated u rfl]
    exact ⟨List.mem_cons_self, hinv.buckets.key_eq _ o hcurrent, rfl⟩
  | getBucketClaim ref =>
    obtain ⟨hfinds, rfl⟩ := h
    rintro k rfl
    exact ⟨hinv.claims.coherent.mem ref k hfinds, hinv.claims.coherent.key_eq ref k hfinds⟩
  | _ => trivial

theorem grows_of_rely (h : (rules d).Rely i s t) : s.Grows t := by
  induction h with
  | refl => exact .refl
  | tail _ hstep ih =>
    obtain ⟨-, henv | ⟨j, a, x, -, -, hperforms⟩⟩ := hstep
    · exact ih.trans henv.grows
    · exact ih.trans (performs_grows hperforms)

theorem meets_act {a : Action} {next : a.Value → Api α}
    (hpermits : ∀ t, s.Grows t → Permits d.known (d.listener i) a t)
    (hnext : ∀ x t, s.Grows t → Tells d.known t (d.listener i) a x → (rules d).Meets i Q E (next x) t) :
    (rules d).Meets i Q E (act a >>= next) s := by
  intro t hrely hinv
  have hgrows := grows_of_rely hrely
  refine ⟨hpermits t hgrows, fun x u hperforms => ?_⟩
  exact hnext x u (hgrows.trans (performs_grows hperforms)) (hinv.tells hperforms)

theorem meets_growing {s₀ : Cluster} {m : Api α} (hgrows : s₀.Grows s) (hm : (rules d).Meets i Q E m s) :
    (rules d).Meets i (fun a t => Q a t ∧ s₀.Grows t) E m s := by
  induction m generalizing s with
  | done a => exact ⟨hm, hgrows⟩
  | raise e => exact hm
  | halt => trivial
  | ask a next ih =>
    intro t hrely hinv
    obtain ⟨hguard, hnext⟩ := hm t hrely hinv
    refine ⟨hguard, fun x u hperforms => ih x ?_ (hnext x u hperforms)⟩
    exact hgrows.trans ((grows_of_rely hrely).trans (performs_grows hperforms))

theorem meets_orThrow {x : Except ApiError α} {next : α → Api β} {Q : β → Cluster → Prop}
    (hnext : ∀ a, x = .ok a → (rules d).Meets i Q (fun _ _ => True) (next a) s) :
    (rules d).Meets i Q (fun _ _ => True) (orThrow x >>= next) s := by
  cases x with
  | ok a => exact hnext a rfl
  | error err => trivial

theorem meets_orThrow_end {x : Except ApiError α} (hQ : ∀ a, x = .ok a → Q a s) :
    (rules d).Meets i Q (fun _ _ => True) (orThrow x) s := by
  cases x with
  | ok a => exact hQ a rfl
  | error err => trivial

theorem meets_orWrap_end {message : String} {x : Except ApiError α} (hQ : ∀ a, x = .ok a → Q a s) :
    (rules d).Meets i Q (fun _ _ => True) (orWrap message x) s := by
  cases x with
  | ok a => exact hQ a rfl
  | error err => trivial

end Asking

/-! ## Status -/

section Status

variable {d : Deployment} {i : d.Pid} {s : Cluster} {b : Bucket}

theorem meets_updateBucketStatus (hready : b.bucketReady = true) (hbacked : Backed s b)
    (hunready : Unready d.known s b.name) :
    (rules d).Meets i (fun u t => u ∈ t.buckets.versions ∧ u.name = b.name ∧ u.bucketReady = true)
      (fun _ _ => True) (updateBucketStatus b) s := by
  refine meets_act (fun _ _ => trivial) fun x t hgrows htells => meets_orThrow fun latest hlatest => ?_
  obtain ⟨-, hname⟩ := htells latest hlatest
  refine meets_act (fun u hgrows' => ⟨hready, ?_, ?_⟩) fun y u _ htells' => ?_
  · have hbacked' := (hbacked.grows hgrows).grows hgrows'
    rwa [Backed, ← hname] at hbacked'
  · have hunready' := (hunready.grows hgrows).grows hgrows'
    rwa [← hname] at hunready'
  · refine meets_orWrap_end fun updated hupdated => ?_
    obtain ⟨hmem, hname', hsame⟩ := htells' updated hupdated
    exact ⟨hmem, hname'.trans hname, hsame.trans hready⟩

theorem meets_updateBucketClaimStatus (hb : b ∈ s.buckets.versions) (hready : b.bucketReady = true) :
    (rules d).Meets i (fun _ _ => True) (fun _ _ => True) (updateBucketClaimStatus b) s := by
  unfold updateBucketClaimStatus
  split
  · trivial
  · rename_i ref href
    refine meets_act (fun _ _ => trivial) fun x t hgrows htells => meets_orThrow fun k hk => ?_
    obtain ⟨hmem, hkey⟩ := htells k hk
    split
    · trivial
    split
    · trivial
    · rename_i hfree _
      refine meets_act (fun u hgrows' => ?_) fun y u _ _ => meets_orThrow_end fun _ _ => trivial
      have hname : b.name = k.bucketName ∨ k.bucketName = "" := by
        by_contra hnot
        rw [not_or] at hnot
        exact hfree ⟨hnot.2, Ne.symm hnot.1⟩
      have hclaim : b.bucketClaim = some k.ref := by rw [href, hkey]
      exact ⟨k, hgrows'.claims k hmem, rfl, rfl, hname, b, hgrows'.buckets b (hgrows.buckets b hb),
        hclaim, rfl, hready⟩

end Status

/-! ## Deletion -/

theorem bucketFinalizer_ne : bucketFinalizer ≠ baBucketFinalizer := by decide

theorem mem_removeFinalizer {finalizers : List String} {finalizer f : String} (hne : f ≠ finalizer) :
    f ∈ (removeFinalizer finalizers finalizer).2 ↔ f ∈ finalizers := by
  simp [removeFinalizer, hne]

section Deletion

variable {d : Deployment} {i : d.Pid} {s : Cluster} {b v : Bucket} {finalizers : List String}
  {l : BucketListener}

theorem meets_deleteStored (hdoomed : b.deletionPolicy = .delete →
      ∃ v ∈ s.buckets.versions, d.known v ∧ Doomed (d.listener i) v ∧ v.bucketID = b.bucketID) :
    (rules d).Meets i (fun _ t => b.deletionPolicy = .delete →
      ⟨(d.listener i).driverName, b.bucketID⟩ ∈ t.gone) (fun _ _ => True) (deleteStored b) s := by
  unfold deleteStored
  split
  · rename_i hdelete
    refine meets_act (fun t hgrows => ?_) fun x t _ htells => ?_
    · obtain ⟨v, hv, h⟩ := hdoomed hdelete
      exact ⟨v, hgrows.buckets v hv, h⟩
    · cases x with
      | none =>
        intro _
        apply htells
        intro err herr
        cases herr
      | some err =>
        change (rules d).Meets i _ _ (if _ then _ else _) _
        split
        · rename_i hnotFound
          intro _
          apply htells
          intro err' herr
          cases herr
          exact hnotFound
        · trivial
  · rename_i hkeep
    exact fun hdelete => absurd hdelete hkeep

theorem meets_unprotectBucketClaim {Q : Cluster → Prop} (hQ : ∀ t, s.Grows t → Q t)
    (htold : ∃ v ∈ s.buckets.versions, v.bucketClaim = b.bucketClaim ∧
      (d.listener i).owns v = true ∧ Told s (d.listener i) v) :
    (rules d).Meets i (fun _ => Q) (fun _ _ => True) (unprotectBucketClaim b) s := by
  unfold unprotectBucketClaim
  split
  · exact hQ s .refl
  · rename_i ref href
    refine meets_act (fun _ _ => trivial) fun x t hgrows htells => ?_
    cases x with
    | error err =>
      change (rules d).Meets i _ _ (if _ then _ else _) _
      split
      · exact hQ t hgrows
      · trivial
    | ok k =>
      obtain ⟨hmem, hkey⟩ := htells k rfl
      dsimp only
      split
      · refine meets_act (fun u hgrows' => ?_) fun y u hgrows' _ => meets_orThrow_end fun _ _ =>
          hQ u (hgrows.trans hgrows')
        obtain ⟨v, hv, hclaim, howns, htold⟩ := htold
        have hclaim' : v.bucketClaim = some k.ref := by rw [hclaim, href, hkey]
        have hof : ToldOf s (d.listener i) k := ⟨v, hv, hclaim', howns, htold⟩
        exact ⟨k, hgrows'.claims k hmem, rfl, rfl, hof.grows (hgrows.trans hgrows')⟩
      · exact hQ t hgrows

theorem meets_deleteBucketOp (hv : v ∈ s.buckets.versions) (hknown : d.known v) (hrequested : v.deletionRequested = true)
    (hfinalizer : bucketFinalizer ∈ v.finalizers) :
    (rules d).Meets i (fun _ t => Told t (d.listener i) v) (fun _ _ => True)
      (deleteBucketOp (d.listener i) { v with finalizers }) s := by
  unfold deleteBucketOp
  split
  · rename_i howns
    have howns' : (d.listener i).owns v = true := howns
    have hdeleted := meets_deleteStored (i := i) (b := { v with finalizers }) fun hdelete =>
      ⟨v, hv, hknown, ⟨howns', hrequested, hdelete, hfinalizer⟩, rfl⟩
    refine (meets_growing .refl hdeleted).bind fun _ t ht => ?_
    obtain ⟨hgone, hgrows⟩ := ht
    have htold : Told t (d.listener i) v := ⟨hrequested, fun _ hdelete => hgone hdelete⟩
    refine meets_unprotectBucketClaim (fun u hgrows' => htold.grows hgrows') ?_
    exact ⟨v, hgrows.buckets v hv, rfl, howns', htold⟩
  · rename_i hforeign
    exact ⟨hrequested, fun howns => absurd howns hforeign⟩

theorem meets_deleteAccessesOf {ref : ObjectReference} (items : List BucketAccess) :
    (rules d).Meets i (fun _ _ => True) (fun _ _ => True) (deleteAccessesOf l ref items) s := by
  induction items generalizing s with
  | nil => trivial
  | cons bucketAccess rest ih =>
    rw [deleteAccessesOf]
    split
    · exact meets_act (fun _ _ => trivial) fun x t _ _ => meets_orThrow fun _ _ => ih
    · exact ih

theorem meets_dropAccesses :
    (rules d).Meets i (fun r _ => bucketFinalizer ∈ r.2 ↔ bucketFinalizer ∈ v.finalizers)
      (fun _ _ => True) (dropAccesses l v) s := by
  unfold dropAccesses
  split
  · split
    · trivial
    · refine meets_act (fun _ _ => trivial) fun x t _ _ => meets_orThrow fun items _ => ?_
      exact (meets_deleteAccessesOf items).bind fun _ _ _ => mem_removeFinalizer bucketFinalizer_ne
  · exact Iff.rfl

theorem meets_dropBucket (hv : v ∈ s.buckets.versions) (hknown : d.known v) (hrequested : v.deletionRequested = true)
    (hsame : bucketFinalizer ∈ finalizers ↔ bucketFinalizer ∈ v.finalizers) :
    (rules d).Meets i (fun r t => (Loses bucketFinalizer v.finalizers r.2 → Told t (d.listener i) v) ∧
        (bucketFinalizer ∈ r.2 → bucketFinalizer ∈ v.finalizers)) (fun _ _ => True) (dropBucket (d.listener i) { v with finalizers }) s := by
  unfold dropBucket
  split
  · rename_i hmem
    exact (meets_deleteBucketOp hv hknown hrequested (hsame.mp hmem)).bind fun _ t htold =>
      ⟨fun _ => htold, fun _ => hsame.mp hmem⟩
  · rename_i hmem
    exact ⟨fun hloses => absurd (hsame.mpr hloses.1) hmem, hsame.mp⟩

theorem meets_cleanupDeletedBucket (hv : v ∈ s.buckets.versions) (hknown : d.known v)
    (hrequested : v.deletionRequested = true) :
    (rules d).Meets i (fun _ _ => True) (fun _ _ => True)
      (cleanupDeletedBucket (d.listener i) v) s := by
  unfold cleanupDeletedBucket
  refine (meets_growing .refl meets_dropAccesses).bind fun r t ht => ?_
  obtain ⟨hsame, hgrows⟩ := ht
  refine (meets_growing .refl (meets_dropBucket (hgrows.buckets v hv) hknown hrequested hsame)).bind
    fun r' u hu => ?_
  obtain ⟨⟨htold, hless⟩, hgrows'⟩ := hu
  dsimp only
  split
  · refine meets_act (fun w hgrows₂ => ?_) fun x w _ _ => meets_orThrow_end fun _ _ => trivial
    have hmem := hgrows₂.buckets v (hgrows'.buckets v (hgrows.buckets v hv))
    exact ⟨v, hmem, r'.2, rfl, fun hloses => (htold hloses).grows hgrows₂, fun hin => .inl (hless hin)⟩
  · trivial

end Deletion

/-! ## Events -/

section Events

variable {d : Deployment} {i : d.Pid} {s : Cluster} {b v : Bucket}

theorem meets_provision (hv : v ∈ s.buckets.versions) :
    (rules d).Meets i (fun b t => b.bucketReady = true ∧ b.name = v.name ∧ Backed t b)
      (fun _ _ => True) (provision v) s := by
  unfold provision
  split
  · rename_i hexisting
    exact ⟨rfl, rfl, hexisting, .inr ⟨v, hv, rfl, rfl⟩⟩
  · refine meets_act (fun _ _ => trivial) fun x t hgrows htells => ?_
    obtain ⟨rsp, err⟩ := x
    dsimp only
    split
    · trivial
    · rename_i hnone
      split
      · trivial
      · rename_i id
        split
        · rename_i hne
          have hmade := htells id rfl hne fun err' herr => by
            rw [Option.filter_eq_none_iff] at hnone
            simpa using hnone err' herr
          exact ⟨rfl, rfl, hne, .inl ⟨_, hmade⟩⟩
        · trivial

theorem meets_protectBucket {name : String} (hunready : Unready d.known s name) :
    (rules d).Meets i (fun _ _ => True) (fun _ _ => True) (protectBucket name) s := by
  unfold protectBucket
  refine meets_act (fun _ _ => trivial) fun x t hgrows htells => meets_orThrow fun latest hlatest => ?_
  obtain ⟨hmem, hname⟩ := htells latest hlatest
  split
  rename_i added finalizers hadd
  split
  · rename_i hadded
    rw [hadded] at hadd
    refine meets_act (fun u hgrows' => ?_) fun y u _ _ => meets_orWrap_end fun _ _ => trivial
    refine ⟨latest, hgrows'.buckets latest hmem, finalizers, rfl, fun hloses => ?_, fun _ => .inr ?_⟩
    · exact absurd (mem_of_addFinalizer hadd) hloses.2
    · rw [hname]
      exact (hunready.grows hgrows).grows hgrows'
  · trivial

theorem meets_add (hv : v ∈ s.buckets.versions) (hknown : d.known v) :
    (rules d).Meets i (fun _ _ => True) (fun _ _ => True) (add (d.listener i) v) s := by
  unfold add
  split
  · trivial
  split
  · rename_i hrequested
    exact meets_cleanupDeletedBucket hv hknown hrequested
  split
  · rename_i hready
    exact meets_updateBucketClaimStatus hv hready
  · rename_i hready
    rw [Bool.not_eq_true] at hready
    have hunready : Unready d.known s v.name := ⟨v, hv, hknown, rfl, hready⟩
    refine (meets_growing .refl (meets_provision hv)).bind fun b t hb => ?_
    obtain ⟨⟨hready', hname, hbacked⟩, hgrows⟩ := hb
    rw [← hname] at hunready
    refine (meets_growing .refl (meets_updateBucketStatus hready' hbacked (hunready.grows hgrows))).bind
      fun u t' hu => ?_
    obtain ⟨⟨hu, hname', hready''⟩, hgrows'⟩ := hu
    rw [← hname'] at hunready
    have hclaim := meets_updateBucketClaimStatus (i := i) hu hready''
    refine (meets_growing .refl hclaim).bind fun _ w hw => ?_
    exact meets_protectBucket (((hunready.grows hgrows).grows hgrows').grows hw.2)

theorem meets_update (hv : v ∈ s.buckets.versions) (hknown : d.known v) :
    (rules d).Meets i (fun _ _ => True) (fun _ _ => True) (update (d.listener i) v) s := by
  unfold update
  split
  · rename_i hrequested
    exact meets_cleanupDeletedBucket hv hknown hrequested
  · trivial

theorem meets_serve (kind : Kind) :
    (rules d).Meets i (fun _ _ => True) (fun _ _ => True) (serve (d.listener i) kind) s := by
  refine meets_act (fun _ _ => trivial) fun v t _ hv => ?_
  cases kind with
  | add => exact meets_add hv.1 hv.2
  | update => exact meets_update hv.1 hv.2

theorem Cluster.Inv.sound (hinv : s.Inv) : (rules d).Sound (d.start s) :=
  ⟨hinv, fun i => meets_serve (d.kind i)⟩

end Events

end ClusterState.Cosi.Provisioning
