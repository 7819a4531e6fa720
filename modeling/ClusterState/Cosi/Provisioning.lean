import ClusterState.Cosi.Listener

/-! # The listener for buckets

`Add` lets the driver create a bucket, writes down that it is ready, tells the claim,
and protects the bucket with a finalizer. Once the deletion of the bucket has been
requested, both `Add` and `Update` clean up after it.
-/

namespace ClusterState.Cosi.Provisioning

open Concurrency

/-! ## Objects -/

structure ObjectReference where
  objectNamespace : String
  name : String
  deriving DecidableEq

inductive DeletionPolicy where
  | unset
  | retain
  | delete
  deriving DecidableEq

structure Bucket where
  name : String
  resourceVersion : Nat
  deletionRequested : Bool
  finalizers : List String
  driverName : String
  bucketClaim : Option ObjectReference
  deletionPolicy : DeletionPolicy
  existingBucketID : String
  parameters : Parameters
  bucketReady : Bool
  bucketID : String
  deriving DecidableEq

structure BucketClaim where
  ref : ObjectReference
  uid : String
  resourceVersion : Nat
  finalizers : List String
  bucketName : String
  bucketReady : Bool
  deriving DecidableEq

structure BucketAccess where
  name : String
  bucketClaimName : String
  deriving DecidableEq

def bcFinalizer : String := "cosi.objectstorage.k8s.io/bucketclaim-protection"
def bucketFinalizer : String := "cosi.objectstorage.k8s.io/bucket-protection"

/-! ## Requests -/

inductive Action where
  | event
  /-- `DriverCreateBucket` -/
  | driverCreateBucket (name : String) (parameters : Parameters)
  /-- `DriverDeleteBucket` -/
  | driverDeleteBucket (bucketID : String)
  | getBucket (name : String)
  | updateBucket (bucket : Bucket)
  | updateBucketStatus (bucket : Bucket)
  | getBucketClaim (ref : ObjectReference)
  | updateBucketClaim (bucketClaim : BucketClaim)
  | updateBucketClaimStatus (bucketClaim : BucketClaim)
  | listBucketAccesses (objectNamespace : String)
  | deleteBucketAccess (objectNamespace name : String)

/-- The driver answers with the identifier of the bucket, where there is a response, and an
error, where there is one. -/
@[reducible] def Action.Value : Action → Type
  | .event => Bucket
  | .driverCreateBucket _ _ => Option String × Option Status
  | .driverDeleteBucket _ => Option Status
  | .getBucket _ => Except ApiError Bucket
  | .updateBucket _ => Except ApiError Unit
  | .updateBucketStatus _ => Except ApiError Bucket
  | .getBucketClaim _ => Except ApiError BucketClaim
  | .updateBucketClaim _ => Except ApiError Unit
  | .updateBucketClaimStatus _ => Except ApiError Unit
  | .listBucketAccesses _ => Except ApiError (List BucketAccess)
  | .deleteBucketAccess _ _ => Except ApiError Unit

abbrev Api := Program Action Action.Value String

def act (a : Action) : Api a.Value := .ask a .done

def orThrow {α : Type} : Except ApiError α → Api α
  | .ok a => pure a
  | .error err => throw err.message

def orWrap {α : Type} (message : String) : Except ApiError α → Api α
  | .ok a => pure a
  | .error err => throw (wrap message err.message)

structure BucketListener where
  driverName : String
  /-- `strings.EqualFold` -/
  equalFold : String → String → Bool

def BucketListener.owns (l : BucketListener) (bucket : Bucket) : Bool :=
  l.equalFold bucket.driverName l.driverName

/-! ## Status -/

def updateBucketStatus (bucket : Bucket) : Api Bucket := do
  let latestBucket ← orThrow (← act (.getBucket bucket.name))
  orWrap "Failed to update bucket status" (← act (.updateBucketStatus
    { latestBucket with bucketID := bucket.bucketID, bucketReady := bucket.bucketReady }))

def updateBucketClaimStatus (bucket : Bucket) : Api Unit :=
  match bucket.bucketClaim with
  | none => pure ()
  | some ref => do
    let bucketClaim ← orThrow (← act (.getBucketClaim ref))
    if bucketClaim.bucketName ≠ "" ∧ bucketClaim.bucketName ≠ bucket.name then
      throw ("bucketClaim " ++ bucketClaim.ref.objectNamespace ++ "/" ++ bucketClaim.ref.name ++
        " is bound to bucket " ++ bucketClaim.bucketName ++ ", expected " ++ bucket.name)
    else if bucketClaim.bucketName ≠ "" ∧ bucketClaim.bucketReady = true then pure ()
    else orThrow (← act (.updateBucketClaimStatus
      { bucketClaim with bucketName := bucket.name, bucketReady := true }))

/-! ## Deletion -/

/-- The driver is asked only where the policy says so. -/
def deleteStored (bucket : Bucket) : Api Unit := do
  if bucket.deletionPolicy = .delete then
    match ← act (.driverDeleteBucket bucket.bucketID) with
    | none => pure ()
    | some err => if err.code = .notFound then pure () else throw err.text
  else pure ()

def unprotectBucketClaim (bucket : Bucket) : Api Unit :=
  match bucket.bucketClaim with
  | none => pure ()
  | some ref => do
    match ← act (.getBucketClaim ref) with
    | .error err => if err.reason = .notFound then pure () else throw err.message
    | .ok bucketClaim =>
      let (removed, finalizers) := removeFinalizer bucketClaim.finalizers bcFinalizer
      if removed then orThrow (← act (.updateBucketClaim { bucketClaim with finalizers }))
      else pure ()

def deleteBucketOp (l : BucketListener) (bucket : Bucket) : Api Unit := do
  if l.owns bucket then
    deleteStored bucket
    unprotectBucketClaim bucket
  else pure ()

def deleteAccessesOf (l : BucketListener) (ref : ObjectReference) : List BucketAccess → Api Unit
  | [] => pure ()
  | bucketAccess :: rest => do
    if l.equalFold bucketAccess.bucketClaimName ref.name then
      orThrow (← act (.deleteBucketAccess ref.objectNamespace bucketAccess.name))
    deleteAccessesOf l ref rest

/-- What is left of the finalizers, and whether that is less. -/
def dropAccesses (l : BucketListener) (bucket : Bucket) : Api (Bool × List String) :=
  if baBucketFinalizer ∈ bucket.finalizers then
    match bucket.bucketClaim with
    -- a nil pointer is followed here
    | none => .halt
    | some ref => do
      let bucketAccessList ← orThrow (← act (.listBucketAccesses ref.objectNamespace))
      deleteAccessesOf l ref bucketAccessList
      pure (removeFinalizer bucket.finalizers baBucketFinalizer)
  else pure (false, bucket.finalizers)

def dropBucket (l : BucketListener) (bucket : Bucket) : Api (Bool × List String) := do
  if bucketFinalizer ∈ bucket.finalizers then
    deleteBucketOp l bucket
    pure (removeFinalizer bucket.finalizers bucketFinalizer)
  else pure (false, bucket.finalizers)

def cleanupDeletedBucket (l : BucketListener) (bucket : Bucket) : Api Unit := do
  let (accessesDropped, finalizers) ← dropAccesses l bucket
  let (bucketDropped, finalizers) ← dropBucket l { bucket with finalizers }
  if accessesDropped || bucketDropped then
    orThrow (← act (.updateBucket { bucket with finalizers }))
  else pure ()

/-! ## Events -/

def provision (bucket : Bucket) : Api Bucket := do
  if bucket.existingBucketID ≠ "" then
    pure { bucket with bucketReady := true, bucketID := bucket.existingBucketID }
  else
    let (rsp, err) ← act (.driverCreateBucket bucket.name bucket.parameters)
    match err.filter fun err => err.code ≠ .alreadyExists with
    | some err => throw (wrap "Failed to create bucket" err.text)
    | none =>
      match rsp with
      | none => throw "DriverCreateBucket returned a nil response"
      | some bucketId =>
        if bucketId ≠ "" then pure { bucket with bucketReady := true, bucketID := bucketId }
        else throw "DriverCreateBucket returned an empty bucketID"

def protectBucket (name : String) : Api Unit := do
  let latestBucket ← orThrow (← act (.getBucket name))
  let (added, finalizers) := addFinalizer latestBucket.finalizers bucketFinalizer
  if added then
    orWrap "Failed to update bucket finalizers" (← act (.updateBucket { latestBucket with finalizers }))
  else pure ()

def add (l : BucketListener) (bucket : Bucket) : Api Unit := do
  if !l.owns bucket then pure ()
  else if bucket.deletionRequested then cleanupDeletedBucket l bucket
  else if bucket.bucketReady then updateBucketClaimStatus bucket
  else
    let provisioned ← provision bucket
    let updatedBucket ← updateBucketStatus provisioned
    updateBucketClaimStatus updatedBucket
    protectBucket updatedBucket.name

def update (l : BucketListener) (new : Bucket) : Api Unit :=
  if new.deletionRequested then cleanupDeletedBucket l new else pure ()

inductive Kind where
  | add
  | update
  deriving DecidableEq

def serve (l : BucketListener) (kind : Kind) : Api Unit := do
  let bucket ← act .event
  match kind with
  | .add => add l bucket
  | .update => update l bucket

end ClusterState.Cosi.Provisioning
