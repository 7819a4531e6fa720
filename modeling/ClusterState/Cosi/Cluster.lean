import ClusterState.Concurrency.Versions
import ClusterState.Cosi.Provisioning
import ClusterState.Cosi.Sidecar

/-! # Sidecars around one API server

Any number of calls run beside each other, of sidecars for any drivers. Each handles some
version of some bucket, and each may stop at any request. Other users create, change and
delete buckets and claims.
-/

namespace ClusterState.Cosi.Provisioning

open Concurrency

instance : Versioned Bucket String where
  key := Bucket.name
  version := Bucket.resourceVersion
  stamp n bucket := { bucket with resourceVersion := n }
  key_stamp _ _ := rfl
  version_stamp _ _ := rfl

instance : Versioned BucketClaim ObjectReference where
  key := BucketClaim.ref
  version := BucketClaim.resourceVersion
  stamp n bucketClaim := { bucketClaim with resourceVersion := n }
  key_stamp _ _ := rfl
  version_stamp _ _ := rfl

structure Stored where
  driverName : String
  bucketID : String
  deriving DecidableEq

structure Cluster where
  buckets : Store Bucket String
  claims : Store BucketClaim ObjectReference
  stored : List Stored
  /-- What has ever been stored, and what has been deleted. -/
  made : List Stored
  gone : List Stored
  /-- What a sidecar has taken its finalizer from. -/
  released : List (BucketListener × Bucket)
  releasedClaims : List (BucketListener × BucketClaim)

/-! ## What the API server makes of an update -/

/-- The status is kept. -/
def Bucket.updated (current new : Bucket) : Bucket :=
  { new with
    deletionRequested := current.deletionRequested
    bucketReady := current.bucketReady
    bucketID := current.bucketID }

def Bucket.statusUpdated (current new : Bucket) : Bucket :=
  { current with bucketReady := new.bucketReady, bucketID := new.bucketID }

def BucketClaim.updated (current new : BucketClaim) : BucketClaim :=
  { current with finalizers := new.finalizers }

def BucketClaim.statusUpdated (current new : BucketClaim) : BucketClaim :=
  { current with bucketName := new.bucketName, bucketReady := new.bucketReady }

def Loses (finalizer : String) (before after : List String) : Prop :=
  finalizer ∈ before ∧ finalizer ∉ after

instance (finalizer : String) (before after : List String) :
    Decidable (Loses finalizer before after) := inferInstanceAs (Decidable (_ ∧ _))

namespace Cluster

def empty : Cluster := ⟨.empty, .empty, [], [], [], [], []⟩

def putBucket (s : Cluster) (l : BucketListener) (current new : Bucket) : Cluster :=
  { s with
    buckets := s.buckets.put (current.updated new)
    released := if Loses bucketFinalizer current.finalizers new.finalizers then
      (l, current) :: s.released else s.released }

def putClaim (s : Cluster) (l : BucketListener) (current new : BucketClaim) : Cluster :=
  { s with
    claims := s.claims.put (current.updated new)
    releasedClaims := if Loses bcFinalizer current.finalizers new.finalizers then
      (l, current) :: s.releasedClaims else s.releasedClaims }

def store (s : Cluster) (ids : List Stored) : Cluster :=
  { s with stored := ids ++ s.stored, made := ids ++ s.made }

def destroy (s : Cluster) (id : Stored) : Cluster :=
  { s with stored := s.stored.filter (· ≠ id), gone := id :: s.gone }

end Cluster

/-- A request of a sidecar, what is answered, and the state after. The informer delivers the
versions that are `known`. -/
def performs (known : Bucket → Prop) (l : BucketListener) :
    (a : Action) → Cluster → a.Value → Cluster → Prop
  | .event, s, x, t => x ∈ s.buckets.versions ∧ known x ∧ t = s
  | .driverCreateBucket _ _, s, x, t => ∃ ids : List Stored,
      (∀ id, x.1 = some id → id ≠ "" → (∀ err, x.2 = some err → err.code = .alreadyExists) →
        ⟨l.driverName, id⟩ ∈ ids) ∧ t = s.store ids
  | .driverDeleteBucket id, s, x, t =>
      (∀ err, x = some err → err.code = .notFound → ⟨l.driverName, id⟩ ∉ s.stored) ∧
      (t = s.destroy ⟨l.driverName, id⟩ ∨ (∃ err, x = some err ∧ err.code ≠ .notFound) ∧ t = s)
  | .getBucket name, s, x, t => Finds (s.buckets.current name) x ∧ t = s
  | .updateBucket b, s, x, t => if Made x then ∃ o, s.buckets.current b.name = some o ∧
      o.resourceVersion = b.resourceVersion ∧
      (o.deletionRequested = true → ∀ f ∈ b.finalizers, f ∈ o.finalizers) ∧ t = s.putBucket l o b
    else t = s
  | .updateBucketStatus b, s, x, t => if Made x then ∃ o, s.buckets.current b.name = some o ∧
      o.resourceVersion = b.resourceVersion ∧
      (∀ updated, x = .ok updated → updated = s.buckets.next (o.statusUpdated b)) ∧
      t = { s with buckets := s.buckets.put (o.statusUpdated b) }
    else t = s
  | .getBucketClaim ref, s, x, t => Finds (s.claims.current ref) x ∧ t = s
  | .updateBucketClaim k, s, x, t => if Made x then ∃ o, s.claims.current k.ref = some o ∧
      o.resourceVersion = k.resourceVersion ∧ t = s.putClaim l o k
    else t = s
  | .updateBucketClaimStatus k, s, x, t => if Made x then ∃ o, s.claims.current k.ref = some o ∧
      o.resourceVersion = k.resourceVersion ∧
      t = { s with claims := s.claims.put (o.statusUpdated k) }
    else t = s
  | .listBucketAccesses _, s, _, t => t = s
  | .deleteBucketAccess _ _, s, _, t => t = s

/-- What other users do. They leave the status of a bucket alone, and do not add the finalizer
of the sidecars. A claim that is not bound may be bound by them. -/
inductive Cluster.Proceeds (creatable : Bucket → Prop) (s : Cluster) : Cluster → Prop
  | createBucket (b : Bucket) (hfree : s.buckets.current b.name = none) (hcreatable : creatable b)
      (hlive : b.deletionRequested = false) (hready : b.bucketReady = false)
      (hfinalizer : bucketFinalizer ∉ b.finalizers) :
      Proceeds creatable s { s with buckets := s.buckets.put b }
  | editBucket (o b : Bucket) (hcurrent : s.buckets.current b.name = some o)
      (hrequested : b.deletionRequested = o.deletionRequested) (hready : b.bucketReady = o.bucketReady)
      (hbucketID : b.bucketID = o.bucketID)
      (hfinalizer : bucketFinalizer ∈ b.finalizers → bucketFinalizer ∈ o.finalizers) :
      Proceeds creatable s { s with buckets := s.buckets.put b }
  | requestDeletion (o : Bucket) (name : String) (hcurrent : s.buckets.current name = some o) :
      Proceeds creatable s
        { s with buckets := s.buckets.put { o with deletionRequested := true } }
  | removeBucket (o : Bucket) (hcurrent : s.buckets.current o.name = some o)
      (hrequested : o.deletionRequested = true) (hfinalizers : o.finalizers = []) :
      Proceeds creatable s { s with buckets := s.buckets.remove o.name }
  | createClaim (k : BucketClaim) (hfree : s.claims.current k.ref = none)
      (huid : ∀ v ∈ s.claims.versions, v.uid ≠ k.uid) (hbound : k.bucketName = "")
      (hready : k.bucketReady = false) : Proceeds creatable s { s with claims := s.claims.put k }
  | editClaim (o k : BucketClaim) (hcurrent : s.claims.current k.ref = some o) (huid : k.uid = o.uid)
      (hready : k.bucketReady = o.bucketReady)
      (hbound : k.bucketName = o.bucketName ∨ o.bucketName = "" ∧ o.bucketReady = false) :
      Proceeds creatable s { s with claims := s.claims.put k }
  | removeClaim (ref : ObjectReference) :
      Proceeds creatable s { s with claims := s.claims.remove ref }

/-- The sidecars, of which each call has a listener. -/
structure Deployment where
  Pid : Type
  decidableEq : DecidableEq Pid
  listener : Pid → BucketListener
  kind : Pid → Kind
  /-- The versions that the informers deliver. -/
  known : Bucket → Prop
  /-- The buckets that other users may create. -/
  creatable : Bucket → Prop

attribute [instance] Deployment.decidableEq

namespace Deployment

variable (d : Deployment)

def system : System d.Pid Action Action.Value Cluster where
  performs i := performs d.known (d.listener i)
  env := Cluster.Proceeds d.creatable

abbrev Calls := Config d.Pid Action Action.Value String Unit Cluster

def start (s : Cluster) : d.Calls := ⟨fun i => serve (d.listener i) (d.kind i), s⟩

end Deployment

end ClusterState.Cosi.Provisioning
