import ClusterState.Concurrency.Program

/-! # Buckets, accesses and credentials

The objects that the provisioner sidecar and the SeaweedFS driver read and write,
and the requests they make: to the API server, to the filer, and for random text.
-/

namespace ClusterState.Cosi

open Concurrency

/-! ## Kubernetes objects -/

abbrev Parameters := AList (fun _ : String => String)

/-- The value of a key of a Go map. -/
def Parameters.get (parameters : Parameters) (key : String) : String :=
  (parameters.lookup key).getD ""

inductive AuthenticationType where
  | unknown
  | key
  | iam
  deriving DecidableEq

structure BucketAccessClass where
  driverName : String
  authenticationType : AuthenticationType
  parameters : Parameters

structure BucketClaim where
  bucketName : String
  bucketReady : Bool
  deriving DecidableEq

structure Bucket where
  name : String
  bucketID : String
  bucketReady : Bool
  finalizers : List String
  deriving DecidableEq

structure BucketAccess where
  objectNamespace : String
  name : String
  uid : String
  resourceVersion : Nat
  deletionRequested : Bool
  finalizers : List String
  bucketClaimName : String
  bucketAccessClassName : String
  credentialsSecretName : String
  serviceAccountName : String
  protocol : String
  accessGranted : Bool
  accountID : String
  deriving DecidableEq

structure SecretS3 where
  endpoint : String
  region : String
  accessKeyID : String
  accessSecretKey : String
  deriving DecidableEq

structure SecretAzure where
  accessToken : String
  expiryTimeStamp : Int
  deriving DecidableEq

structure BucketInfo where
  name : String
  bucketName : String
  authenticationType : AuthenticationType
  protocols : List String
  s3 : Option SecretS3
  azure : Option SecretAzure
  deriving DecidableEq

/-- The data under `BucketInfo` of a Secret: none, JSON that does not parse, or an
encoded `BucketInfo`. -/
inductive RawBucketInfo where
  | empty
  | malformed (err : String)
  | encoded (info : BucketInfo)
  deriving DecidableEq

structure Secret where
  objectNamespace : String
  name : String
  finalizers : List String
  bucketInfo : RawBucketInfo
  deriving DecidableEq

/-- What the typed client returns next to an error. -/
def noSecret : Secret := ⟨"", "", [], .empty⟩

def accountNamePrefix : String := "ba-"
def bucketInfoPrefix : String := "bc-"
def baBucketFinalizer : String := "cosi.objectstorage.k8s.io/bucketaccess-bucket-protection"
def baFinalizer : String := "cosi.objectstorage.k8s.io/bucketaccess-protection"
def secretFinalizer : String := "cosi.objectstorage.k8s.io/secret-protection"
def grantParamAccessKeyID : String := "cosi.seaweedfs.io/accessKeyID"
def grantParamAccessSecretKey : String := "cosi.seaweedfs.io/accessSecretKey"

/-- `controllerutil.AddFinalizer`: whether it was added, and the finalizers. -/
def addFinalizer (finalizers : List String) (finalizer : String) : Bool × List String :=
  if finalizer ∈ finalizers then (false, finalizers) else (true, finalizers ++ [finalizer])

/-- `controllerutil.RemoveFinalizer` -/
def removeFinalizer (finalizers : List String) (finalizer : String) : Bool × List String :=
  (decide (finalizer ∈ finalizers), finalizers.filter (· ≠ finalizer))

theorem mem_of_addFinalizer {finalizers finalizers' : List String} {finalizer : String}
    (h : addFinalizer finalizers finalizer = (true, finalizers')) : finalizer ∈ finalizers' := by
  unfold addFinalizer at h
  split at h
  · cases h
  · cases h
    exact List.mem_append_right _ (List.mem_singleton.mpr rfl)

/-! ## Identities -/

structure Credential where
  accessKey : String
  secretKey : String
  deriving DecidableEq

structure Identity where
  name : String
  credentials : List Credential
  actions : List String
  deriving DecidableEq

inductive IdentityFile where
  | empty
  | malformed (err : String)
  | encoded (identity : Identity)
  deriving DecidableEq

/-! ## Requests -/

/-- Why the API server or the filer refuses. A write that is `lost` has been made,
but its answer did not arrive. -/
inductive Reason where
  | notFound
  | alreadyExists
  | conflict
  | other
  | lost
  deriving DecidableEq

structure ApiError where
  reason : Reason
  message : String
  deriving DecidableEq

inductive Code where
  | canceled
  | unknown
  | invalidArgument
  | deadlineExceeded
  | notFound
  | alreadyExists
  | resourceExhausted
  | permissionDenied
  | failedPrecondition
  | aborted
  | outOfRange
  | unimplemented
  | internal
  | unavailable
  | dataLoss
  | unauthenticated
  deriving DecidableEq

def Code.text : Code → String
  | canceled => "Canceled"
  | unknown => "Unknown"
  | invalidArgument => "InvalidArgument"
  | deadlineExceeded => "DeadlineExceeded"
  | notFound => "NotFound"
  | alreadyExists => "AlreadyExists"
  | resourceExhausted => "ResourceExhausted"
  | permissionDenied => "PermissionDenied"
  | failedPrecondition => "FailedPrecondition"
  | aborted => "Aborted"
  | outOfRange => "OutOfRange"
  | unimplemented => "Unimplemented"
  | internal => "Internal"
  | unavailable => "Unavailable"
  | dataLoss => "DataLoss"
  | unauthenticated => "Unauthenticated"

structure Status where
  code : Code
  message : String
  deriving DecidableEq

def Status.text (status : Status) : String :=
  "rpc error: code = " ++ status.code.text ++ " desc = " ++ status.message

/-- What the sidecar and the driver do. `event` takes the next object from the
informer, `returned` marks the end of a call. -/
inductive Action where
  | event
  | getBucketAccessClass (name : String)
  | getBucketClaim (objectNamespace name : String)
  | getBucket (name : String)
  | updateBucket (bucket : Bucket)
  | getSecret (objectNamespace name : String)
  | createSecret (secret : Secret)
  | updateSecret (secret : Secret)
  | deleteSecret (objectNamespace name : String)
  | getBucketAccess (objectNamespace name : String)
  | updateBucketAccess (bucketAccess : BucketAccess)
  | updateBucketAccessStatus (bucketAccess : BucketAccess)
  | lookupIdentity (user : String)
  | updateIdentity (identity : Identity)
  | createIdentity (identity : Identity)
  | deleteIdentity (user : String)
  | generateAccessKeyID
  | generateSecretAccessKey
  /-- The transport of a gRPC request or of its reply, which may fail. -/
  | transport
  | returned (result : Except String Unit)

@[reducible] def Action.Value : Action → Type
  | .event => BucketAccess
  | .getBucketAccessClass _ => Except ApiError BucketAccessClass
  | .getBucketClaim _ _ => Except ApiError BucketClaim
  | .getBucket _ => Except ApiError Bucket
  | .updateBucket _ => Except ApiError Unit
  | .getSecret _ _ => Except ApiError Secret
  | .createSecret _ => Except ApiError Unit
  | .updateSecret _ => Except ApiError Unit
  | .deleteSecret _ _ => Except ApiError Unit
  | .getBucketAccess _ _ => Except ApiError BucketAccess
  | .updateBucketAccess _ => Except ApiError BucketAccess
  | .updateBucketAccessStatus _ => Except ApiError Unit
  | .lookupIdentity _ => Except ApiError IdentityFile
  | .updateIdentity _ => Except ApiError Unit
  | .createIdentity _ => Except ApiError Unit
  | .deleteIdentity _ => Except ApiError Unit
  | .generateAccessKeyID => Except String String
  | .generateSecretAccessKey => Except String String
  | .transport => Except Status Unit
  | .returned _ => Unit

abbrev Api (ε : Type) := Program Action Action.Value ε

def act {ε : Type} (a : Action) : Api ε a.Value := .ask a .done

end ClusterState.Cosi
