import ClusterState.Concurrency.Evaluation
import ClusterState.Cosi.Sidecar

/-! # Deleting an access again and again

`deleteBucketAccessOp` begins from the start whatever an earlier attempt has done. It needs
the Secret for that: when the Secret is gone, it goes on with the object that the client
returns beside the error, and asks for the deletion of a Secret without a name.
-/

namespace ClusterState.Cosi.Deletion

open Concurrency

/-! ## The API server and the driver -/

/-- The Secrets by namespace and name. None has an empty name. -/
structure Secrets where
  entries : AList fun _ : String × String => Secret
  named : ∀ key secret, entries.lookup key = some secret →
    (secret.objectNamespace, secret.name) = key ∧ key.2 ≠ ""

namespace Secrets

def get (s : Secrets) (objectNamespace name : String) : Option Secret :=
  s.entries.lookup (objectNamespace, name)

def put (s : Secrets) (secret : Secret) (h : secret.name ≠ "") : Secrets where
  entries := s.entries.insert (secret.objectNamespace, secret.name) secret
  named key found hfound := by
    by_cases hkey : key = (secret.objectNamespace, secret.name)
    · rw [hkey, AList.lookup_insert] at hfound
      cases hfound
      exact ⟨hkey.symm, by rwa [hkey]⟩
    · rw [AList.lookup_insert_ne hkey] at hfound
      exact s.named key found hfound

def erase (s : Secrets) (objectNamespace name : String) : Secrets where
  entries := s.entries.erase (objectNamespace, name)
  named key secret h := by
    by_cases hkey : key = (objectNamespace, name)
    · rw [hkey, AList.lookup_erase] at h
      cases h
    · rw [AList.lookup_erase_ne hkey] at h
      exact s.named key secret h

variable {s : Secrets} {objectNamespace name : String} {secret : Secret}

theorem names_of_get (h : s.get objectNamespace name = some secret) :
    secret.objectNamespace = objectNamespace ∧ secret.name = name ∧ name ≠ "" := by
  obtain ⟨hkey, hname⟩ := s.named _ _ h
  exact ⟨congrArg Prod.fst hkey, congrArg Prod.snd hkey, hname⟩

@[simp] theorem get_put (h : secret.name ≠ "") :
    (s.put secret h).get secret.objectNamespace secret.name = some secret := AList.lookup_insert _

@[simp] theorem get_erase : (s.erase objectNamespace name).get objectNamespace name = none :=
  AList.lookup_erase _ _

end Secrets

/-- What the API server and the driver keep; the accesses by namespace and name. -/
structure Server where
  accesses : AList fun _ : String × String => BucketAccess
  secrets : Secrets
  identities : AList fun _ : String => IdentityFile
  calls : Nat

structure Outage extends Failures String where
  transport : Nat → Option Status

def calm : Outage where
  toFailures := .calm
  transport _ := none

namespace Server

variable (s : Server)

def next : Server := { s with calls := s.calls + 1 }

def access (b : BucketAccess) : Option BucketAccess := s.accesses.lookup (b.objectNamespace, b.name)

/-- What becomes of a Secret that is deleted: it stays while it has finalizers. -/
def deleteSecret (objectNamespace name : String) (secret : Secret) : Server :=
  if secret.finalizers = [] then { s with secrets := s.secrets.erase objectNamespace name } else s

/-- Without finalizers an access goes when its deletion has been requested. -/
def updateAccess (current new : BucketAccess) : Server :=
  if current.deletionRequested = true ∧ new.finalizers = [] then
    { s with accesses := s.accesses.erase (new.objectNamespace, new.name) }
  else
    { s with accesses := s.accesses.insert (new.objectNamespace, new.name) (current.updated new) }

end Server

namespace Outage

variable (o : Outage)

def answer (failure : FailedCall String) : ApiError :=
  ⟨if failure.made then .lost else .other, failure.error⟩

def change {α : Type} (s : Server) (result : Except ApiError (α × Server)) :
    Except ApiError α × Server :=
  match o.failure s.calls, result with
  | none, .ok (a, s') => (.ok a, s'.next)
  | none, .error err => (.error err, s.next)
  | some failure, .ok (_, s') => (.error (answer failure), if failure.made then s'.next else s.next)
  | some failure, .error _ => (.error ⟨.other, failure.error⟩, s.next)

def unnamed : ApiError := ⟨.other, "resource name may not be empty"⟩

def getSecret (s : Server) (objectNamespace name : String) : Except ApiError (Secret × Server) :=
  if name = "" then .error unnamed
  else
    match s.secrets.get objectNamespace name with
    | some secret => .ok (secret, s)
    | none => .error ⟨.notFound, "secrets \"" ++ name ++ "\" not found"⟩

def updateSecret (s : Server) (secret : Secret) : Except ApiError (Unit × Server) :=
  if h : secret.name = "" then .error unnamed
  else
    match s.secrets.get secret.objectNamespace secret.name with
    | some _ => .ok ((), { s with secrets := s.secrets.put secret h })
    | none => .error ⟨.notFound, "secrets \"" ++ secret.name ++ "\" not found"⟩

def deleteSecret (s : Server) (objectNamespace name : String) : Except ApiError (Unit × Server) :=
  if name = "" then .error unnamed
  else
    match s.secrets.get objectNamespace name with
    | some secret => .ok ((), s.deleteSecret objectNamespace name secret)
    | none => .error ⟨.notFound, "secrets \"" ++ name ++ "\" not found"⟩

def updateBucketAccess (s : Server) (new : BucketAccess) : Except ApiError (BucketAccess × Server) :=
  match s.access new with
  | some current =>
    if current.resourceVersion = new.resourceVersion then .ok (current.updated new, s.updateAccess current new)
    else .error ⟨.conflict, "the object has been modified"⟩
  | none => .error ⟨.notFound, "bucketaccesses \"" ++ new.name ++ "\" not found"⟩

def deleteIdentity (s : Server) (user : String) : Except ApiError (Unit × Server) :=
  match s.identities.lookup user with
  | some _ => .ok ((), { s with identities := s.identities.erase user })
  | none => .error ⟨.notFound, "no entry is found"⟩

def respond : (a : Action) → Server → Option (a.Value × Server)
  | .getSecret objectNamespace name, s => some (o.change s (getSecret s objectNamespace name))
  | .updateSecret secret, s => some (o.change s (updateSecret s secret))
  | .deleteSecret objectNamespace name, s => some (o.change s (deleteSecret s objectNamespace name))
  | .updateBucketAccess b, s => some (o.change s (updateBucketAccess s b))
  | .deleteIdentity user, s => some (o.change s (deleteIdentity s user))
  | .transport, s =>
    match o.transport s.calls with
    | some status => some (.error status, s.next)
    | none => some (.ok (), s.next)
  | _, _ => none

end Outage

/-! ## Attempts -/

/-- One attempt, with the version of the access that the queue hands out. -/
def attempt (o : Outage) (v : BucketAccess) (s : Server) : Option (Except String Unit) × Server :=
  (deleteBucketAccessOp v).eval o.respond s

def attempts (s : Server) (earlier : List (Outage × BucketAccess)) : Server :=
  earlier.foldl (fun s e => (attempt e.1 e.2 s).2) s

/-- The account is revoked, the Secret is gone, and the access has lost its finalizer. -/
structure Settled (v : BucketAccess) (s : Server) : Prop where
  account : v.accountID ≠ "" → s.identities.lookup v.accountID = none
  secret : s.secrets.get v.objectNamespace v.credentialsSecretName = none
  finalizer : ∀ b, s.access v = some b → baFinalizer ∉ b.finalizers

def Converges (o : Outage) (v : BucketAccess) (s : Server) : Prop :=
  (attempt o v s).1 = some (.ok ()) ∧ Settled v (attempt o v s).2

/-- The finalizer of the access can be taken away: a version that has it is the current one,
and a version that has none is not behind. -/
def Releasable (v : BucketAccess) (s : Server) : Prop :=
  if baFinalizer ∈ v.finalizers then ∃ b, s.access v = some b ∧ b.resourceVersion = v.resourceVersion
  else ∀ b, s.access v = some b → baFinalizer ∉ b.finalizers

/-- The Secret is there, and nobody else holds it back. -/
def SecretThere (v : BucketAccess) (s : Server) : Prop :=
  ∃ secret, s.secrets.get v.objectNamespace v.credentialsSecretName = some secret ∧
    ∀ f ∈ secret.finalizers, f = secretFinalizer

/-! ## Without failures -/

section Calm

variable {s : Server} {v : BucketAccess}

theorem eval_act {α ε : Type} {a : Action} {next : a.Value → Api ε α} {x : a.Value} {s' : Server}
    (h : calm.respond a s = some (x, s')) :
    (act a >>= next).eval calm.respond s = (next x).eval calm.respond s' := Program.eval_ask h

theorem change_ok {α : Type} {a : α} {s' : Server} {result : Except ApiError (α × Server)}
    (h : result = .ok (a, s')) : calm.change s result = (.ok a, s'.next) := by
  unfold Outage.change
  rw [h]
  rfl

theorem change_error {α : Type} {err : ApiError} {result : Except ApiError (α × Server)}
    (h : result = .error err) : calm.change s result = (.error err, s.next) := by
  unfold Outage.change
  rw [h]
  rfl

theorem respond_transport : calm.respond .transport s = some (.ok (), s.next) := by
  rfl

structure Revoked (accountID : String) (s s' : Server) : Prop where
  accesses : s'.accesses = s.accesses
  secrets : s'.secrets = s.secrets
  account : accountID ≠ "" → s'.identities.lookup accountID = none

theorem eval_deleteS3Identity (user : String) : ∃ s',
    (deleteS3Identity user).eval calm.respond s = (some (.ok ()), s') ∧ Revoked user s s' := by
  unfold deleteS3Identity
  cases hthere : s.identities.lookup user with
  | some file =>
    have hdelete : Outage.deleteIdentity s user =
        .ok ((), { s with identities := s.identities.erase user }) := by
      rw [Outage.deleteIdentity, hthere]
    have hrespond : calm.respond (.deleteIdentity user) s = _ := congrArg some (change_ok hdelete)
    rw [eval_act hrespond]
    exact ⟨_, rfl, rfl, rfl, fun _ => AList.lookup_erase _ _⟩
  | none =>
    have hdelete : Outage.deleteIdentity s user = .error ⟨.notFound, "no entry is found"⟩ := by
      rw [Outage.deleteIdentity, hthere]
    have hrespond : calm.respond (.deleteIdentity user) s = _ := congrArg some (change_error hdelete)
    rw [eval_act hrespond]
    exact ⟨_, rfl, rfl, rfl, fun _ => hthere⟩

theorem eval_revokeAccount (accountID : String) : ∃ s',
    (revokeAccount accountID).eval calm.respond s = (some (.ok ()), s') ∧ Revoked accountID s s' := by
  unfold revokeAccount
  split
  · rename_i hempty
    exact ⟨s, rfl, rfl, rfl, fun hne => absurd hempty hne⟩
  · rename_i hne
    obtain ⟨s', heval, hrevoked⟩ := eval_deleteS3Identity (s := s.next) accountID
    have hdriver : (driverRevokeBucketAccess accountID).eval calm.respond s.next =
        (some (.ok ()), s') := by
      rw [driverRevokeBucketAccess, if_neg hne]
      exact heval
    have houtcome := @Program.eval_outcome _ _ _ _ _ calm.respond String
      (driverRevokeBucketAccess accountID) s.next
    rw [hdriver] at houtcome
    have hrpc : (rpc (driverRevokeBucketAccess accountID)).eval calm.respond s =
        (some (.ok (.ok ())), s'.next) := by
      rw [rpc, eval_act (respond_transport)]
      dsimp only
      rw [Program.eval_bind_ok houtcome, eval_act (respond_transport)]
      rfl
    rw [Program.eval_bind_ok hrpc]
    exact ⟨_, rfl, hrevoked.accesses, hrevoked.secrets, hrevoked.account⟩

theorem get_deleteSecret {objectNamespace name : String} {secret : Secret}
    (h : s.secrets.get objectNamespace name = some secret) :
    (s.deleteSecret objectNamespace name secret).secrets.get objectNamespace name = none ↔
      secret.finalizers = [] := by
  unfold Server.deleteSecret
  split
  · rename_i hnone
    exact iff_of_true Secrets.get_erase hnone
  · rename_i hsome
    rw [h]
    exact iff_of_false nofun hsome

theorem eval_deleteSecret {objectNamespace name : String} {secret : Secret}
    (h : s.secrets.get objectNamespace name = some secret) {next : Except ApiError Unit → Api String Unit}
    (hnext : next (.ok ()) = pure ()) : ∃ s',
    (act (.deleteSecret objectNamespace name) >>= next).eval calm.respond s = (some (.ok ()), s') ∧
      s'.accesses = s.accesses ∧ s'.identities = s.identities ∧
      (s'.secrets.get objectNamespace name = none ↔ secret.finalizers = []) := by
  have hdelete : Outage.deleteSecret s objectNamespace name =
      .ok ((), s.deleteSecret objectNamespace name secret) := by
    rw [Outage.deleteSecret, if_neg (Secrets.names_of_get h).2.2, h]
  have hrespond : calm.respond (.deleteSecret objectNamespace name) s = _ :=
    congrArg some (change_ok hdelete)
  rw [eval_act hrespond, hnext]
  refine ⟨_, rfl, ?_, ?_, get_deleteSecret h⟩
  · unfold Server.deleteSecret
    split <;> rfl
  · unfold Server.deleteSecret
    split <;> rfl

theorem eval_updateSecret {secret found : Secret}
    (h : s.secrets.get secret.objectNamespace secret.name = some found) : ∃ s',
    (∀ next : Except ApiError Unit → Api String Unit,
      (act (.updateSecret secret) >>= next).eval calm.respond s = (next (.ok ())).eval calm.respond s') ∧
      s'.accesses = s.accesses ∧ s'.identities = s.identities ∧
      s'.secrets.get secret.objectNamespace secret.name = some secret := by
  have hname := (Secrets.names_of_get h).2.2
  have hupdate : Outage.updateSecret s secret =
      .ok ((), { s with secrets := s.secrets.put secret hname }) := by
    rw [Outage.updateSecret, dif_neg hname, h]
  have hrespond : calm.respond (.updateSecret secret) s = _ := congrArg some (change_ok hupdate)
  exact ⟨_, fun _ => eval_act hrespond, rfl, rfl, Secrets.get_put hname⟩

theorem eval_deleteSecretOf {objectNamespace name : String} {secret : Secret}
    (h : s.secrets.get objectNamespace name = some secret) : ∃ s',
    (deleteSecretOf objectNamespace secret).eval calm.respond s = (some (.ok ()), s') ∧
      s'.accesses = s.accesses ∧ s'.identities = s.identities ∧
      (s'.secrets.get objectNamespace name = none ↔ ∀ f ∈ secret.finalizers, f = secretFinalizer) := by
  obtain ⟨rfl, rfl, -⟩ := Secrets.names_of_get h
  have hleft : secret.finalizers.filter (· ≠ secretFinalizer) = [] ↔
      ∀ f ∈ secret.finalizers, f = secretFinalizer := by
    simp [List.filter_eq_nil_iff]
  rw [← hleft]
  unfold deleteSecretOf removeFinalizer
  by_cases hmem : secretFinalizer ∈ secret.finalizers
  · rw [decide_eq_true hmem]
    dsimp only
    rw [if_pos rfl]
    obtain ⟨t, hupdate, haccesses, hidentities, hget⟩ := @eval_updateSecret s
      { secret with finalizers := secret.finalizers.filter (· ≠ secretFinalizer) } _ h
    rw [hupdate, ← haccesses, ← hidentities]
    exact eval_deleteSecret hget rfl
  · have hsame : secret.finalizers.filter (· ≠ secretFinalizer) = secret.finalizers := by
      rw [List.filter_eq_self]
      intro f hf
      exact decide_eq_true fun heq => hmem (heq ▸ hf)
    rw [decide_eq_false hmem, hsame]
    dsimp only
    rw [if_neg Bool.false_ne_true]
    exact eval_deleteSecret h rfl

theorem finalizer_updateAccess {current new b : BucketAccess}
    (hfinalizers : baFinalizer ∉ new.finalizers)
    (h : (s.updateAccess current new).accesses.lookup (new.objectNamespace, new.name) = some b) :
    baFinalizer ∉ b.finalizers := by
  unfold Server.updateAccess at h
  split at h
  · rw [AList.lookup_erase] at h
    cases h
  · rw [AList.lookup_insert] at h
    cases h
    exact hfinalizers

theorem eval_updateBucketAccess (new : BucketAccess) :
    (∃ b, (s.access new = some b ∧ b.resourceVersion = new.resourceVersion) ∧
      ∀ next : Except ApiError BucketAccess → Api String Unit,
        (act (.updateBucketAccess new) >>= next).eval calm.respond s =
          (next (.ok (b.updated new))).eval calm.respond (s.updateAccess b new).next) ∨
    ((¬ ∃ b, s.access new = some b ∧ b.resourceVersion = new.resourceVersion) ∧ ∃ err,
      ∀ next : Except ApiError BucketAccess → Api String Unit,
        (act (.updateBucketAccess new) >>= next).eval calm.respond s =
          (next (.error err)).eval calm.respond s.next) := by
  cases hthere : s.access new with
  | none =>
    have hupdate : Outage.updateBucketAccess s new =
        .error ⟨.notFound, "bucketaccesses \"" ++ new.name ++ "\" not found"⟩ := by
      rw [Outage.updateBucketAccess, hthere]
    have hrespond : calm.respond (.updateBucketAccess new) s = _ := congrArg some (change_error hupdate)
    exact .inr ⟨nofun, _, fun next => eval_act hrespond⟩
  | some b =>
    by_cases hversion : b.resourceVersion = new.resourceVersion
    · have hupdate : Outage.updateBucketAccess s new =
          .ok (b.updated new, s.updateAccess b new) := by
        rw [Outage.updateBucketAccess, hthere]
        exact if_pos hversion
      have hrespond : calm.respond (.updateBucketAccess new) s = _ := congrArg some (change_ok hupdate)
      exact .inl ⟨b, ⟨rfl, hversion⟩, fun next => eval_act hrespond⟩
    · have hupdate : Outage.updateBucketAccess s new =
          .error ⟨.conflict, "the object has been modified"⟩ := by
        rw [Outage.updateBucketAccess, hthere]
        exact if_neg hversion
      have hrespond : calm.respond (.updateBucketAccess new) s = _ := congrArg some (change_error hupdate)
      refine .inr ⟨?_, _, fun next => eval_act hrespond⟩
      rintro ⟨b', hb', hv⟩
      cases hb'
      exact hversion hv

/-- The last step succeeds with the access released exactly from a version that is not behind. -/
theorem eval_unprotectBucketAccess (v : BucketAccess) : ∃ x s',
    (unprotectBucketAccess v).eval calm.respond s = (some x, s') ∧
      s'.secrets = s.secrets ∧ s'.identities = s.identities ∧
      ((x = .ok () ∧ ∀ b, s'.access v = some b → baFinalizer ∉ b.finalizers) ↔ Releasable v s) := by
  unfold unprotectBucketAccess removeFinalizer Releasable
  by_cases hmem : baFinalizer ∈ v.finalizers
  · rw [decide_eq_true hmem, if_pos hmem]
    dsimp only
    rw [if_pos rfl]
    have hremoved : baFinalizer ∉ v.finalizers.filter (· ≠ baFinalizer) := by simp
    obtain ⟨b, hcurrent, heval⟩ | ⟨hbehind, err, heval⟩ := eval_updateBucketAccess (s := s)
      { v with finalizers := v.finalizers.filter (· ≠ baFinalizer) }
    · rw [heval]
      refine ⟨_, _, rfl, ?_, ?_, iff_of_true ⟨rfl, fun b' hb' => ?_⟩ ⟨b, hcurrent⟩⟩
      · unfold Server.next Server.updateAccess
        split <;> rfl
      · unfold Server.next Server.updateAccess
        split <;> rfl
      · exact @finalizer_updateAccess _ _ { v with finalizers := v.finalizers.filter (· ≠ baFinalizer) } _
          hremoved hb'
    · rw [heval]
      exact ⟨_, _, rfl, rfl, rfl, iff_of_false (fun h => nomatch h.1) hbehind⟩
  · rw [decide_eq_false hmem, if_neg hmem]
    dsimp only
    rw [if_neg Bool.false_ne_true]
    exact ⟨.ok (), s, rfl, rfl, rfl, and_iff_right rfl⟩

/-- Without the Secret the deletion of a Secret without a name is asked for, and fails. -/
theorem eval_deleteSecretOf_noSecret (objectNamespace : String) : ∃ err s',
    (deleteSecretOf objectNamespace noSecret).eval calm.respond s = (some (.error err), s') := by
  have hdelete : Outage.deleteSecret s objectNamespace "" = .error Outage.unnamed := rfl
  have hrespond : calm.respond (.deleteSecret objectNamespace "") s = _ :=
    congrArg some (change_error hdelete)
  exact ⟨_, _, eval_act hrespond⟩

/-! ## The attempt -/

theorem getSecret_of_get (h : s.secrets.get v.objectNamespace v.credentialsSecretName = none) :
    ∃ err, Outage.getSecret s v.objectNamespace v.credentialsSecretName = .error err := by
  unfold Outage.getSecret
  split
  · exact ⟨_, rfl⟩
  · rw [h]
    exact ⟨_, rfl⟩

theorem attempt_of_absent
    (h : s.secrets.get v.objectNamespace v.credentialsSecretName = none) :
    ∃ err, (attempt calm v s).1 = some (.error err) := by
  obtain ⟨err, hget⟩ := getSecret_of_get h
  have hrespond : calm.respond (.getSecret v.objectNamespace v.credentialsSecretName) s = _ :=
    congrArg some (change_error hget)
  unfold attempt deleteBucketAccessOp
  rw [eval_act hrespond]
  dsimp only
  split
  · obtain ⟨s₁, hrevoke, -⟩ := eval_revokeAccount (s := s.next) v.accountID
    obtain ⟨err', s₂, hdelete⟩ := eval_deleteSecretOf_noSecret (s := s₁) v.objectNamespace
    rw [Program.eval_bind_ok hrevoke, Program.eval_bind_error hdelete]
    exact ⟨err', rfl⟩
  · exact ⟨_, rfl⟩

theorem attempt_of_present {secret : Secret}
    (h : s.secrets.get v.objectNamespace v.credentialsSecretName = some secret) :
    Converges calm v s ↔ (∀ f ∈ secret.finalizers, f = secretFinalizer) ∧ Releasable v s := by
  have hget : Outage.getSecret s v.objectNamespace v.credentialsSecretName = .ok (secret, s) := by
    rw [Outage.getSecret, if_neg (Secrets.names_of_get h).2.2, h]
  have hrespond : calm.respond (.getSecret v.objectNamespace v.credentialsSecretName) s = _ :=
    congrArg some (change_ok hget)
  obtain ⟨s₁, hrevoke, haccesses₁, hsecrets₁, haccount₁⟩ :=
    eval_revokeAccount (s := s.next) v.accountID
  have hsecret₁ : s₁.secrets.get v.objectNamespace v.credentialsSecretName = some secret := by
    rw [hsecrets₁]
    exact h
  obtain ⟨s₂, hdelete, haccesses₂, hidentities₂, hgone⟩ := eval_deleteSecretOf hsecret₁
  obtain ⟨x, s₃, hunprotect, hsecrets₃, hidentities₃, hreleased⟩ :=
    eval_unprotectBucketAccess (s := s₂) v
  have hattempt : attempt calm v s = (some x, s₃) := by
    unfold attempt deleteBucketAccessOp
    rw [eval_act hrespond]
    dsimp only
    rw [Program.eval_bind_ok hrevoke, Program.eval_bind_ok hdelete, hunprotect]
  have hreleasable : Releasable v s₂ ↔ Releasable v s := by
    unfold Releasable Server.access
    rw [haccesses₂, haccesses₁]
    rfl
  rw [← hgone, ← hreleasable, ← hreleased, ← hsecrets₃]
  unfold Converges
  rw [hattempt]
  constructor
  · rintro ⟨hx, hsettled⟩
    exact ⟨hsettled.secret, Option.some.inj hx, hsettled.finalizer⟩
  · rintro ⟨hsecret, hx, hfinalizer⟩
    refine ⟨congrArg some hx, ?_, hsecret, hfinalizer⟩
    rw [hidentities₃, hidentities₂]
    exact haccount₁

/-- Whatever earlier attempts have done, an attempt during which nothing fails deletes the
access exactly if its Secret is still there and its finalizer can be taken away. -/
theorem deletion_converges_iff (s : Server) (earlier : List (Outage × BucketAccess))
    (v : BucketAccess) :
    Converges calm v (attempts s earlier) ↔
      SecretThere v (attempts s earlier) ∧ Releasable v (attempts s earlier) := by
  generalize attempts s earlier = s
  cases hget : s.secrets.get v.objectNamespace v.credentialsSecretName with
  | none =>
    obtain ⟨err, hfails⟩ := attempt_of_absent hget
    apply iff_of_false
    · intro h
      have hreturned := h.1
      rw [hfails] at hreturned
      cases hreturned
    · rintro ⟨⟨secret, hthere, -⟩, -⟩
      rw [hget] at hthere
      cases hthere
  | some secret =>
    rw [attempt_of_present hget]
    apply and_congr_left
    intro hreleasable
    constructor
    · intro hfree
      exact ⟨secret, hget, hfree⟩
    · rintro ⟨secret', hthere, hfree⟩
      rw [hget] at hthere
      cases hthere
      exact hfree

end Calm

/-! ## A deletion that is interrupted -/

namespace Sample

def mediaAccess : BucketAccess where
  objectNamespace := "default"
  name := "media"
  uid := "5f0c"
  resourceVersion := 7
  deletionRequested := true
  finalizers := [baFinalizer]
  bucketClaimName := "media"
  bucketAccessClassName := "seaweedfs"
  credentialsSecretName := "media-s3"
  serviceAccountName := ""
  protocol := "s3"
  accessGranted := true
  accountID := "ba-5f0c"

def mediaSecret : Secret := ⟨"default", "media-s3", [secretFinalizer], .empty⟩

def granted : Server where
  accesses := AList.singleton ("default", "media") mediaAccess
  secrets := Secrets.put ⟨∅, nofun⟩ mediaSecret (by decide)
  identities := AList.singleton "ba-5f0c" (.encoded ⟨"ba-5f0c", [⟨"AK5F0C", "9d1e"⟩], ["Read:media"]⟩)
  calls := 0

/-- The last call fails, in which the finalizer of the access is taken away. -/
def interrupted : Outage :=
  { calm with failure := fun n => if n = 6 then some ⟨false, "etcdserver: request timed out"⟩ else none }

end Sample

theorem retried_deletion_fails : ¬ ∀ (s : Server) (earlier : List (Outage × BucketAccess))
    (v : BucketAccess), s.access v = some v → v.deletionRequested = true → SecretThere v s →
    (attempts s earlier).access v = some v → Converges calm v (attempts s earlier) := by
  intro h
  have hconverges := h Sample.granted [(Sample.interrupted, Sample.mediaAccess)] Sample.mediaAccess
    (by decide) rfl ⟨Sample.mediaSecret, by decide, by decide⟩ (by decide)
  have hreturned := hconverges.1
  revert hreturned
  decide

end ClusterState.Cosi.Deletion
