import ClusterState.Cosi.Cluster

/-! # Claims, buckets, and what is at the drivers

A claim is bound once. It is ready only for a bucket that a driver has made or that was
there before, and the bucket and its claim are let go only after the driver has been told.
-/

namespace ClusterState.Cosi.Provisioning

open Concurrency

/-! ## Bound claims -/

/-- Every claim names one bucket only, once it names one. -/
structure Binding (claims : Store BucketClaim ObjectReference) : Prop where
  coherent : claims.Coherent
  uid : ∀ ref ref' o o', claims.current ref = some o → claims.current ref' = some o' →
    o.uid = o'.uid → ref = ref'
  kept : ∀ v ∈ claims.versions, v.bucketName ≠ "" → ∀ ref o, claims.current ref = some o →
    o.uid = v.uid → o.bucketName = v.bucketName
  bound : ∀ v ∈ claims.versions, ∀ v' ∈ claims.versions, v.uid = v'.uid → v.bucketName ≠ "" →
    v'.bucketName ≠ "" → v.bucketName = v'.bucketName

namespace Binding

variable {claims : Store BucketClaim ObjectReference} {o k : BucketClaim} {ref : ObjectReference}

theorem empty : Binding .empty := by
  constructor
  · exact Store.Coherent.empty
  · intro ref ref' o o' h
    cases h
  · intro v hv
    cases hv
  · intro v hv
    cases hv

theorem remove (h : Binding claims) : Binding (claims.remove ref) where
  coherent := h.coherent.remove
  uid ref₁ ref₂ o o' ho ho' := h.uid ref₁ ref₂ o o' (Store.current_remove ho) (Store.current_remove ho')
  kept v hv hbound ref' o ho := h.kept v hv hbound ref' o (Store.current_remove ho)
  bound := h.bound

theorem bucketName_eq (h : Binding claims) (hcurrent : claims.current k.ref = some o)
    (huid : k.uid = o.uid) (hname : k.bucketName = o.bucketName ∨ o.bucketName = "")
    {v : BucketClaim} (hv : v ∈ claims.versions) (hbound : v.bucketName ≠ "") (hsame : k.uid = v.uid) :
    k.bucketName = v.bucketName := by
  have hkept := h.kept v hv hbound k.ref o hcurrent (huid.symm.trans hsame)
  rcases hname with hname | hname
  · exact hname.trans hkept
  · exact absurd (hkept.symm.trans hname) hbound

theorem edit (h : Binding claims) (hcurrent : claims.current k.ref = some o) (huid : k.uid = o.uid)
    (hname : k.bucketName = o.bucketName ∨ o.bucketName = "") : Binding (claims.put k) where
  coherent := h.coherent.put
  uid ref₁ ref₂ o₁ o₂ ho₁ ho₂ hsame := by
    rcases Store.current_put ho₁ with ⟨rfl, rfl⟩ | ⟨hne₁, ho₁⟩ <;>
      rcases Store.current_put ho₂ with ⟨rfl, rfl⟩ | ⟨hne₂, ho₂⟩
    · rfl
    · exact absurd (h.uid k.ref ref₂ o o₂ hcurrent ho₂ (huid.symm.trans hsame)).symm hne₂
    · exact absurd (h.uid ref₁ k.ref o₁ o ho₁ hcurrent (hsame.trans huid)) hne₁
    · exact h.uid ref₁ ref₂ o₁ o₂ ho₁ ho₂ hsame
  kept v hv hbound ref' o' ho' hsame := by
    rcases List.mem_cons.mp hv with rfl | hv <;>
      rcases Store.current_put ho' with ⟨rfl, rfl⟩ | ⟨hne, ho'⟩
    · rfl
    · exact absurd (h.uid ref' k.ref o' o ho' hcurrent (hsame.trans huid)) hne
    · exact h.bucketName_eq hcurrent huid hname hv hbound hsame
    · exact h.kept v hv hbound ref' o' ho' hsame
  bound v hv v' hv' hsame hbound hbound' := by
    rcases List.mem_cons.mp hv with rfl | hv <;> rcases List.mem_cons.mp hv' with rfl | hv'
    · rfl
    · exact h.bucketName_eq hcurrent huid hname hv' hbound' hsame
    · exact (h.bucketName_eq hcurrent huid hname hv hbound hsame.symm).symm
    · exact h.bound v hv v' hv' hsame hbound hbound'

theorem create (h : Binding claims) (huid : ∀ v ∈ claims.versions, v.uid ≠ k.uid)
    (hname : k.bucketName = "") : Binding (claims.put k) where
  coherent := h.coherent.put
  uid ref₁ ref₂ o₁ o₂ ho₁ ho₂ hsame := by
    rcases Store.current_put ho₁ with ⟨rfl, rfl⟩ | ⟨-, ho₁⟩ <;>
      rcases Store.current_put ho₂ with ⟨rfl, rfl⟩ | ⟨-, ho₂⟩
    · rfl
    · exact absurd hsame.symm (huid o₂ (h.coherent.mem _ _ ho₂))
    · exact absurd hsame (huid o₁ (h.coherent.mem _ _ ho₁))
    · exact h.uid ref₁ ref₂ o₁ o₂ ho₁ ho₂ hsame
  kept v hv hbound ref' o' ho' hsame := by
    rcases List.mem_cons.mp hv with rfl | hv
    · exact absurd hname hbound
    · rcases Store.current_put ho' with ⟨rfl, rfl⟩ | ⟨-, ho'⟩
      · exact absurd hsame.symm (huid v hv)
      · exact h.kept v hv hbound ref' o' ho' hsame
  bound v hv v' hv' hsame hbound hbound' := by
    rcases List.mem_cons.mp hv with rfl | hv
    · exact absurd hname hbound
    · rcases List.mem_cons.mp hv' with rfl | hv'
      · exact absurd hname hbound'
      · exact h.bound v hv v' hv' hsame hbound hbound'

end Binding

/-! ## What stays true -/

structure Cluster.Grows (s t : Cluster) : Prop where
  buckets : ∀ v ∈ s.buckets.versions, v ∈ t.buckets.versions
  claims : ∀ v ∈ s.claims.versions, v ∈ t.claims.versions
  made : ∀ id ∈ s.made, id ∈ t.made
  gone : ∀ id ∈ s.gone, id ∈ t.gone

namespace Cluster.Grows

variable {s t u : Cluster}

theorem refl : s.Grows s := ⟨fun _ h => h, fun _ h => h, fun _ h => h, fun _ h => h⟩

theorem trans (h : s.Grows t) (h' : t.Grows u) : s.Grows u :=
  ⟨fun v hv => h'.buckets v (h.buckets v hv), fun v hv => h'.claims v (h.claims v hv),
    fun id hid => h'.made id (h.made id hid), fun id hid => h'.gone id (h.gone id hid)⟩

theorem putBucket {b : Bucket} : s.Grows { s with buckets := s.buckets.put b } :=
  ⟨fun _ => List.mem_cons_of_mem _, fun _ h => h, fun _ h => h, fun _ h => h⟩

theorem putClaim {k : BucketClaim} : s.Grows { s with claims := s.claims.put k } :=
  ⟨fun _ h => h, fun _ => List.mem_cons_of_mem _, fun _ h => h, fun _ h => h⟩

theorem updateBucket {l : BucketListener} {o b : Bucket} : s.Grows (s.putBucket l o b) :=
  ⟨fun _ => List.mem_cons_of_mem _, fun _ h => h, fun _ h => h, fun _ h => h⟩

theorem updateClaim {l : BucketListener} {o k : BucketClaim} : s.Grows (s.putClaim l o k) :=
  ⟨fun _ h => h, fun _ => List.mem_cons_of_mem _, fun _ h => h, fun _ h => h⟩

theorem store {ids : List Stored} : s.Grows (s.store ids) :=
  ⟨fun _ h => h, fun _ h => h, fun _ => List.mem_append_right _, fun _ h => h⟩

theorem destroy {id : Stored} : s.Grows (s.destroy id) :=
  ⟨fun _ h => h, fun _ h => h, fun _ h => h, fun _ => List.mem_cons_of_mem _⟩

end Cluster.Grows

section Facts

/-- A driver has made the bucket, or it was there before. -/
def Backed (s : Cluster) (b : Bucket) : Prop :=
  b.bucketID ≠ "" ∧ ((∃ driverName, ⟨driverName, b.bucketID⟩ ∈ s.made) ∨
    ∃ v ∈ s.buckets.versions, v.name = b.name ∧ v.existingBucketID = b.bucketID)

def Provisioned (s : Cluster) (k : BucketClaim) : Prop :=
  ∃ v ∈ s.buckets.versions, v.bucketClaim = some k.ref ∧ v.name = k.bucketName ∧ v.bucketReady = true

def Doomed (l : BucketListener) (b : Bucket) : Prop :=
  l.owns b = true ∧ b.deletionRequested = true ∧ b.deletionPolicy = .delete ∧
    bucketFinalizer ∈ b.finalizers

def Told (s : Cluster) (l : BucketListener) (b : Bucket) : Prop :=
  b.deletionRequested = true ∧
    (l.owns b = true → b.deletionPolicy = .delete → ⟨l.driverName, b.bucketID⟩ ∈ s.gone)

def ToldOf (s : Cluster) (l : BucketListener) (k : BucketClaim) : Prop :=
  ∃ v ∈ s.buckets.versions, v.bucketClaim = some k.ref ∧ l.owns v = true ∧ Told s l v

variable {s t : Cluster} {l : BucketListener} {b : Bucket} {k : BucketClaim}

theorem Backed.grows (hgrows : s.Grows t) (h : Backed s b) : Backed t b := by
  obtain ⟨hne, ⟨driverName, hmade⟩ | ⟨v, hv, hname, hexisting⟩⟩ := h
  · exact ⟨hne, .inl ⟨driverName, hgrows.made _ hmade⟩⟩
  · exact ⟨hne, .inr ⟨v, hgrows.buckets v hv, hname, hexisting⟩⟩

theorem Provisioned.grows (hgrows : s.Grows t) (h : Provisioned s k) : Provisioned t k := by
  obtain ⟨v, hv, h⟩ := h
  exact ⟨v, hgrows.buckets v hv, h⟩

theorem Told.grows (hgrows : s.Grows t) (h : Told s l b) : Told t l b :=
  ⟨h.1, fun howns hdelete => hgrows.gone _ (h.2 howns hdelete)⟩

theorem ToldOf.grows (hgrows : s.Grows t) (h : ToldOf s l k) : ToldOf t l k := by
  obtain ⟨v, hv, hclaim, howns, htold⟩ := h
  exact ⟨v, hgrows.buckets v hv, hclaim, howns, htold.grows hgrows⟩

end Facts

structure Cluster.Inv (s : Cluster) : Prop where
  buckets : s.buckets.Coherent
  claims : Binding s.claims
  backed : ∀ v ∈ s.buckets.versions, v.bucketReady = true → Backed s v
  provisioned : ∀ v ∈ s.claims.versions, v.bucketReady = true → Provisioned s v
  released : ∀ e ∈ s.released, Told s e.1 e.2
  releasedClaims : ∀ e ∈ s.releasedClaims, ToldOf s e.1 e.2

namespace Cluster.Inv

variable {s : Cluster} {l : BucketListener} {b o : Bucket} {k o' : BucketClaim} {ref : ObjectReference}

theorem empty : Cluster.empty.Inv := by
  constructor
  · exact Store.Coherent.empty
  · exact Binding.empty
  all_goals
    intro e he
    cases he

theorem putBucket (h : s.Inv) (hbacked : b.bucketReady = true → Backed s b) :
    Cluster.Inv { s with buckets := s.buckets.put b } where
  buckets := h.buckets.put
  claims := h.claims
  backed v hv hready := by
    rcases List.mem_cons.mp hv with rfl | hv
    · exact Backed.grows .putBucket (hbacked hready)
    · exact Backed.grows .putBucket (h.backed v hv hready)
  provisioned v hv hready := Provisioned.grows .putBucket (h.provisioned v hv hready)
  released e he := Told.grows .putBucket (h.released e he)
  releasedClaims e he := ToldOf.grows .putBucket (h.releasedClaims e he)

theorem updateBucket (h : s.Inv) {finalizers : List String} (ho : o ∈ s.buckets.versions)
    (htold : Loses bucketFinalizer o.finalizers finalizers → Told s l o) :
    (s.putBucket l o { o with finalizers }).Inv where
  buckets := h.buckets.put
  claims := h.claims
  backed v hv hready := by
    rcases List.mem_cons.mp hv with rfl | hv
    · exact Backed.grows .updateBucket (h.backed o ho hready)
    · exact Backed.grows .updateBucket (h.backed v hv hready)
  provisioned v hv hready := Provisioned.grows .updateBucket (h.provisioned v hv hready)
  released e he := by
    apply Told.grows .updateBucket
    simp only [Cluster.putBucket] at he
    split at he
    · rename_i hloses
      rcases List.mem_cons.mp he with rfl | he
      · exact htold hloses
      · exact h.released e he
    · exact h.released e he
  releasedClaims e he := ToldOf.grows .updateBucket (h.releasedClaims e he)

theorem putClaim (h : s.Inv) (hclaims : Binding (s.claims.put k))
    (hprovisioned : k.bucketReady = true → Provisioned s k) :
    Cluster.Inv { s with claims := s.claims.put k } where
  buckets := h.buckets
  claims := hclaims
  backed v hv hready := Backed.grows .putClaim (h.backed v hv hready)
  provisioned v hv hready := by
    rcases List.mem_cons.mp hv with rfl | hv
    · exact Provisioned.grows .putClaim (hprovisioned hready)
    · exact Provisioned.grows .putClaim (h.provisioned v hv hready)
  released e he := Told.grows .putClaim (h.released e he)
  releasedClaims e he := ToldOf.grows .putClaim (h.releasedClaims e he)

theorem updateClaim (h : s.Inv) (hcurrent : s.claims.current ref = some o')
    (htold : Loses bcFinalizer o'.finalizers k.finalizers → ToldOf s l o') :
    (s.putClaim l o' k).Inv where
  buckets := h.buckets
  claims := by
    obtain rfl := h.claims.coherent.key_eq ref o' hcurrent
    exact h.claims.edit hcurrent rfl (.inl rfl)
  backed v hv hready := Backed.grows .updateClaim (h.backed v hv hready)
  provisioned v hv hready := by
    rcases List.mem_cons.mp hv with rfl | hv
    · have hmem := h.claims.coherent.mem ref o' hcurrent
      exact Provisioned.grows .updateClaim (h.provisioned o' hmem hready)
    · exact Provisioned.grows .updateClaim (h.provisioned v hv hready)
  released e he := Told.grows .updateClaim (h.released e he)
  releasedClaims e he := by
    apply ToldOf.grows .updateClaim
    simp only [Cluster.putClaim] at he
    split at he
    · rename_i hloses
      rcases List.mem_cons.mp he with rfl | he
      · exact htold hloses
      · exact h.releasedClaims e he
    · exact h.releasedClaims e he

theorem store (h : s.Inv) {ids : List Stored} : (s.store ids).Inv where
  buckets := h.buckets
  claims := h.claims
  backed v hv hready := Backed.grows .store (h.backed v hv hready)
  provisioned := h.provisioned
  released := h.released
  releasedClaims := h.releasedClaims

theorem destroy (h : s.Inv) {id : Stored} : (s.destroy id).Inv where
  buckets := h.buckets
  claims := h.claims
  backed := h.backed
  provisioned := h.provisioned
  released e he := Told.grows .destroy (h.released e he)
  releasedClaims e he := ToldOf.grows .destroy (h.releasedClaims e he)

end Cluster.Inv

end ClusterState.Cosi.Provisioning
