import ClusterState.Cosi.Driver

/-! # The listener for bucket accesses

`Add` grants access through the driver and writes down the outcome: the Secret,
the finalizers of the bucket and of the access, and the status. `Update` takes
everything back when the deletion of the access has been requested.
-/

namespace ClusterState.Cosi

open Concurrency

structure BucketAccessListener where
  driverName : String
  /-- `strings.EqualFold` -/
  equalFold : String → String → Bool
  /-- `time.Parse`, the zero time if there is an error. -/
  parseTime : String → Int
  /-- The driver behind `provisionerClient`. -/
  driver : ProvisionerServer

/-- `errors.Wrap` -/
def wrap (message err : String) : String := message ++ ": " ++ err

def orWrap {α : Type} (message : String) : Except ApiError α → Api String α
  | .ok a => pure a
  | .error err => throw (wrap message err.message)

def orThrow {α : Type} : Except ApiError α → Api String α
  | .ok a => pure a
  | .error err => throw err.message

/-- A call of the driver. The request or the reply may be lost on the way. -/
def rpc {α : Type} (handler : Api Status α) : Api String (Except Status α) := do
  match ← act .transport with
  | .error status => pure (.error status)
  | .ok () =>
    let result ← handler.outcome
    match ← act .transport with
    | .error status => pure (.error status)
    | .ok () => pure result

/-! ## Granting -/

def accountName (bucketAccess : BucketAccess) : String := accountNamePrefix ++ bucketAccess.uid

def parametersWithExistingS3Credentials (parameters : Parameters) (secret : Secret) :
    Except String Parameters :=
  match secret.bucketInfo with
  | .empty => .ok parameters
  | .malformed err => .error (wrap "failed to parse existing BucketInfo secret" err)
  | .encoded info =>
    match info.s3 with
    | none => .ok parameters
    | some s3 =>
      if s3.accessKeyID ≠ "" ∧ s3.accessSecretKey ≠ "" then
        .ok ((parameters.insert grantParamAccessKeyID s3.accessKeyID).insert
          grantParamAccessSecretKey s3.accessSecretKey)
      else .ok parameters

def orDefault (value default : String) : String := if value = "" then default else value

def bucketInfo (l : BucketAccessListener) (bucketAccess : BucketAccess)
    (bucketAccessClass : BucketAccessClass) (bucket : Bucket)
    (credentials : List (String × Parameters)) : BucketInfo where
  name := bucketInfoPrefix ++ bucketAccess.uid
  bucketName := bucket.name
  authenticationType := bucketAccessClass.authenticationType
  protocols := [bucketAccess.protocol]
  s3 := (credentials.lookup "s3").map fun secrets =>
    ⟨orDefault (secrets.get "endpoint") "https://s3.amazonaws.com",
      orDefault (secrets.get "region") "us-west-1", secrets.get "accessKeyID",
      secrets.get "accessSecretKey"⟩
  azure :=
    if (credentials.lookup "s3").isSome then none
    else (credentials.lookup "azure").map fun secrets =>
      ⟨secrets.get "accessToken", l.parseTime (secrets.get "expiryTs")⟩

def protectBucket (bucket : Bucket) : Api String Unit := do
  let currentBucket ← orThrow (← act (.getBucket bucket.name))
  let (added, finalizers) := addFinalizer currentBucket.finalizers baBucketFinalizer
  if added then orThrow (← act (.updateBucket { currentBucket with finalizers }))
  else pure ()

def protectBucketAccess (bucketAccess : BucketAccess) : Api String BucketAccess := do
  let current ← orThrow (← act (.getBucketAccess bucketAccess.objectNamespace bucketAccess.name))
  let (added, finalizers) := addFinalizer current.finalizers baFinalizer
  if added then
    orWrap ("Failed to update BucketAccess finalizer. BucketAccess: " ++ bucketAccess.name)
      (← act (.updateBucketAccess { current with finalizers }))
  else pure current

def markBucketAccessGranted (bucketAccess : BucketAccess) (bucket : Bucket) (accountID : String) :
    Api String Unit := do
  if accountID = "" then throw "AccountID not defined"
  else
    protectBucket bucket
    let current ← protectBucketAccess bucketAccess
    if current.accessGranted && current.accountID = accountID then pure ()
    else
      orWrap ("Failed to update BucketAccess Status. BucketAccess: " ++ bucketAccess.name)
        (← act (.updateBucketAccessStatus { current with accountID, accessGranted := true }))

/-- The branch of `Add` for an access whose Secret exists. -/
def ensureGrant (l : BucketAccessListener) (bucketAccess : BucketAccess)
    (bucketAccessClass : BucketAccessClass) (bucket : Bucket) (existingSecret : Secret) :
    Api String Unit := do
  match parametersWithExistingS3Credentials bucketAccessClass.parameters existingSecret with
  | .error err => throw err
  | .ok params =>
    match ← rpc (driverGrantBucketAccess l.driver ⟨bucket.bucketID, accountName bucketAccess,
        bucketAccessClass.authenticationType, params⟩) with
    | .error status =>
      if status.code = .alreadyExists then
        markBucketAccessGranted bucketAccess bucket (accountName bucketAccess)
      else throw (wrap "failed to ensure existing access grant" status.text)
    | .ok rsp =>
      markBucketAccessGranted bucketAccess bucket (orDefault rsp.accountId (accountName bucketAccess))

/-- The branch of `Add` for an access without a Secret. -/
def mintCredentials (l : BucketAccessListener) (bucketAccess : BucketAccess)
    (bucketAccessClass : BucketAccessClass) (bucket : Bucket) : Api String Unit := do
  match ← rpc (driverGrantBucketAccess l.driver ⟨bucket.bucketID, accountName bucketAccess,
      bucketAccessClass.authenticationType, bucketAccessClass.parameters⟩) with
  | .error status =>
    -- the response is nil, and reading its AccountId panics
    if status.code = .alreadyExists then .halt
    else throw (wrap "failed to grant access" status.text)
  | .ok rsp =>
    if rsp.accountId = "" then
      throw (wrap ("BucketAccess " ++ bucketAccess.name)
        "AccountId not defined in DriverGrantBucketAccess")
    else if rsp.credentials.length ≠ 1 then
      throw (wrap ("BucketAccess " ++ bucketAccess.name)
        "Credentials returned in DriverGrantBucketAccessResponse should be of length 1")
    else
      match ← act (.createSecret ⟨bucketAccess.objectNamespace, bucketAccess.credentialsSecretName,
          [secretFinalizer],
          .encoded (bucketInfo l bucketAccess bucketAccessClass bucket rsp.credentials)⟩) with
      | .ok () => markBucketAccessGranted bucketAccess bucket rsp.accountId
      | .error err =>
        if err.reason = .alreadyExists then markBucketAccessGranted bucketAccess bucket rsp.accountId
        else throw (wrap "Failed to create minted secret" err.message)

/-- `Add` from where the bucket is known. -/
def grantAccess (l : BucketAccessListener) (bucketAccess : BucketAccess)
    (bucketAccessClass : BucketAccessClass) (bucket : Bucket) : Api String Unit := do
  match ← act (.getSecret bucketAccess.objectNamespace bucketAccess.credentialsSecretName) with
  | .ok existingSecret => ensureGrant l bucketAccess bucketAccessClass bucket existingSecret
  | .error err =>
    if err.reason = .notFound then mintCredentials l bucketAccess bucketAccessClass bucket
    else throw (wrap "failed to fetch secrets" err.message)

def add (l : BucketAccessListener) (bucketAccess : BucketAccess) : Api String Unit := do
  if bucketAccess.credentialsSecretName = "" then
    throw "CredentialsSecretName not defined in the BucketAccess"
  else
    let bucketAccessClass ← orWrap "Failed to fetch BucketAccessClass"
      (← act (.getBucketAccessClass bucketAccess.bucketAccessClassName))
    if !l.equalFold bucketAccessClass.driverName l.driverName then pure ()
    else
      let bucketClaim ← orWrap "Failed to fetch bucketClaim"
        (← act (.getBucketClaim bucketAccess.objectNamespace bucketAccess.bucketClaimName))
      if bucketClaim.bucketName = "" || !bucketClaim.bucketReady then
        throw (wrap "Invalid arguments" "BucketName cannot be empty or BucketNotReady in bucketClaim")
      else if bucketAccessClass.authenticationType = .iam && bucketAccess.serviceAccountName = "" then
        throw "Must define ServiceAccountName when AuthenticationType is IAM"
      else
        let bucket ← orWrap "Failed to fetch bucket" (← act (.getBucket bucketClaim.bucketName))
        if !bucket.bucketReady || bucket.bucketID = "" then
          throw "BucketAccess can't be granted to bucket not in Ready state and without a bucketID"
        else grantAccess l bucketAccess bucketAccessClass bucket

/-! ## Taking back -/

def revokeAccount (accountID : String) : Api String Unit := do
  if accountID = "" then pure ()
  else
    match ← rpc (driverRevokeBucketAccess accountID) with
    | .ok () => pure ()
    | .error status => if status.code = .notFound then pure () else throw status.text

def deleteSecretOf (objectNamespace : String) (secret : Secret) : Api String Unit := do
  let (removed, finalizers) := removeFinalizer secret.finalizers secretFinalizer
  if removed then orThrow (← act (.updateSecret { secret with finalizers }))
  match ← act (.deleteSecret objectNamespace secret.name) with
  | .ok () => pure ()
  | .error err => if err.reason = .notFound then pure () else throw err.message

def unprotectBucketAccess (bucketAccess : BucketAccess) : Api String Unit := do
  let (removed, finalizers) := removeFinalizer bucketAccess.finalizers baFinalizer
  if removed then
    let _ ← orThrow (← act (.updateBucketAccess { bucketAccess with finalizers }))
    pure ()
  else pure ()

def deleteBucketAccessOp (bucketAccess : BucketAccess) : Api String Unit := do
  match ← act (.getSecret bucketAccess.objectNamespace bucketAccess.credentialsSecretName) with
  | .ok secret =>
    revokeAccount bucketAccess.accountID
    deleteSecretOf bucketAccess.objectNamespace secret
    unprotectBucketAccess bucketAccess
  | .error err =>
    if err.reason = .notFound then
      revokeAccount bucketAccess.accountID
      deleteSecretOf bucketAccess.objectNamespace noSecret
      unprotectBucketAccess bucketAccess
    else throw err.message

def update (new : BucketAccess) : Api String Unit :=
  if !new.deletionRequested then pure () else deleteBucketAccessOp new

/-! ## Programs of some actions only -/

section Only

variable {quiet : Action → Prop} {α : Type}

theorem only_act {ε : Type} {a : Action} (ha : quiet a) : (act a : Api ε a.Value).Only quiet :=
  ⟨ha, fun _ => trivial⟩

theorem only_orThrow (x : Except ApiError α) : (orThrow x).Only quiet := by
  cases x <;> trivial

theorem only_orWrap (message : String) (x : Except ApiError α) :
    (orWrap message x).Only quiet := by
  cases x <;> trivial

theorem only_protectBucket (hget : ∀ name, quiet (.getBucket name))
    (hupdate : ∀ b, quiet (.updateBucket b)) (bucket : Bucket) :
    (protectBucket bucket).Only quiet := by
  refine (only_act (hget _)).bind fun x => (only_orThrow x).bind fun current => ?_
  split
  split
  · exact (only_act (hupdate _)).bind only_orThrow
  · trivial

end Only

end ClusterState.Cosi
