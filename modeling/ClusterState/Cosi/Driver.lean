import ClusterState.Cosi.Objects

/-! # The SeaweedFS driver

`DriverGrantBucketAccess` and `DriverRevokeBucketAccess` keep one file per
identity at the filer. A mutex serves them one after the other.
-/

namespace ClusterState.Cosi

open Concurrency

structure ProvisionerServer where
  endpoint : String
  region : String

structure GrantRequest where
  bucketId : String
  name : String
  authenticationType : AuthenticationType
  parameters : Parameters

structure GrantResponse where
  accountId : String
  credentials : List (String × Parameters)

def actionsForPolicy (policy : String) : Except String (List String) :=
  if policy = "readonly" then .ok ["Read", "List"]
  else if policy = "readwrite" ∨ policy = "" then .ok ["Read", "Write", "List", "Tagging"]
  else .error ("unsupported accessPolicy \"" ++ policy ++
    "\", must be \"readonly\" or \"readwrite\"")

def firstUsableCredential (identity : Identity) : Option Credential :=
  identity.credentials.find? fun credential => credential.accessKey ≠ "" ∧ credential.secretKey ≠ ""

def desiredCredential (parameters : Parameters) : Option Credential :=
  let accessKey := parameters.get grantParamAccessKeyID
  let secretKey := parameters.get grantParamAccessSecretKey
  if accessKey = "" ∨ secretKey = "" then none else some ⟨accessKey, secretKey⟩

def newCredential : Api Status Credential := do
  match ← act .generateAccessKeyID with
  | .error err => throw ⟨.internal, err⟩
  | .ok accessKey =>
    match ← act .generateSecretAccessKey with
    | .error err => throw ⟨.internal, err⟩
    | .ok secretKey => pure ⟨accessKey, secretKey⟩

def readS3Identity (user : String) : Api Status (Option Identity) := do
  match ← act (.lookupIdentity user) with
  | .error err => if err.reason = .notFound then pure none else throw ⟨.internal, err.message⟩
  | .ok .empty => pure none
  | .ok (.malformed err) => throw ⟨.internal, "parse identity " ++ user ++ ": " ++ err⟩
  | .ok (.encoded identity) => pure (some identity)

def saveS3Identity (identity : Identity) : Api Status Unit := do
  match ← act (.updateIdentity identity) with
  | .ok () => pure ()
  | .error err =>
    if err.reason = .notFound then
      match ← act (.createIdentity identity) with
      | .ok () => pure ()
      | .error err => throw ⟨.internal, err.message⟩
    else throw ⟨.internal, err.message⟩

def deleteS3Identity (user : String) : Api Status Unit := do
  match ← act (.deleteIdentity user) with
  | .ok () => pure ()
  | .error err => if err.reason = .notFound then pure () else throw ⟨.internal, err.message⟩

/-- The credential of an identity: the desired one, one it has, or a new one. -/
def chooseCredential (identity : Identity) (parameters : Parameters) : Api Status Credential :=
  match (desiredCredential parameters).or (firstUsableCredential identity) with
  | some credential => pure credential
  | none => newCredential

def grantActions (identity : Identity) (bucket : String) (actions : List String) : List String :=
  actions.foldl (fun granted a =>
    let action := a ++ ":" ++ bucket
    if action ∈ granted then granted else granted ++ [action]) identity.actions

def driverGrantBucketAccess (s : ProvisionerServer) (req : GrantRequest) : Api Status GrantResponse := do
  if req.name = "" ∨ req.bucketId = "" then throw ⟨.invalidArgument, "user or bucket empty"⟩
  else
    match actionsForPolicy (req.parameters.get "accessPolicy") with
    | .error err => throw ⟨.invalidArgument, err⟩
    | .ok actions =>
      let found ← readS3Identity req.name
      let identity := found.getD ⟨req.name, [], []⟩
      let credential ← chooseCredential identity req.parameters
      saveS3Identity { identity with
        credentials := [credential]
        actions := grantActions identity req.bucketId actions }
      pure ⟨req.name, [("s3", [⟨"accessKeyID", credential.accessKey⟩,
        ⟨"accessSecretKey", credential.secretKey⟩, ⟨"endpoint", s.endpoint⟩,
        ⟨"region", s.region⟩].toAList)]⟩

def grantResponse (s : ProvisionerServer) (user : String) (credential : Credential) : GrantResponse :=
  ⟨user, [("s3", [⟨"accessKeyID", credential.accessKey⟩, ⟨"accessSecretKey", credential.secretKey⟩,
    ⟨"endpoint", s.endpoint⟩, ⟨"region", s.region⟩].toAList)]⟩

def driverRevokeBucketAccess (accountId : String) : Api Status Unit := do
  if accountId = "" then throw ⟨.invalidArgument, "user empty"⟩
  else deleteS3Identity accountId

end ClusterState.Cosi
