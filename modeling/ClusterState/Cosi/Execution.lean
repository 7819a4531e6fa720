import ClusterState.Cosi.Credentials
import ClusterState.Cosi.Revocation

/-! # Sessions of the sidecar

An access is granted, and taken back. -/

namespace ClusterState.Cosi

open Concurrency

/-- An answer of the surroundings. `plain` is what is there, and success. -/
inductive Reply where
  | plain
  | version (n : Nat)
  | bucketAccessClass (n : Nat)
  | bucketClaim (bucketClaim : BucketClaim)
  | bucket (bucket : Bucket)
  | text (s : String)

inductive Happening where
  | requestDeletion
  | remove

def found {α : Type} : Option α → Except ApiError α
  | some a => .ok a
  | none => .error ⟨.notFound, "not found"⟩

theorem finds_found {α : Type} (there : Option α) : Finds there (found there) := by
  cases there with
  | none => exact fun _ => rfl
  | some a => rfl

namespace State

def answered (d : Deployment) (s : State) : (a : Action) → Reply → Option a.Value
  | .event, .version n => s.versions[n]?
  | .getBucketAccessClass _, .bucketAccessClass n => (d.classes[n]?).map .ok
  | .getBucketClaim _ _, .bucketClaim c => some (.ok c)
  | .getBucket _, .bucket b => some (.ok b)
  | .updateBucket _, .plain => some (.ok ())
  | .getSecret _ _, .plain => some (found s.secret)
  | .createSecret _, .plain => if s.secret = none then some (.ok ()) else none
  | .updateSecret _, .plain => if s.secret ≠ none then some (.ok ()) else none
  | .deleteSecret _ _, .plain => if s.secret ≠ none then some (.ok ()) else none
  | .getBucketAccess _ _, .plain => some (found s.access)
  | .updateBucketAccess b, .plain =>
    match s.access with
    | some o =>
      if o.resourceVersion = b.resourceVersion ∧
          (o.deletionRequested = true → ∀ f ∈ b.finalizers, f ∈ o.finalizers) then
        some (.ok (o.updated b))
      else none
    | none => none
  | .updateBucketAccessStatus b, .plain =>
    match s.access with
    | some o => if o.resourceVersion = b.resourceVersion then some (.ok ()) else none
    | none => none
  | .lookupIdentity _, .plain => some (found s.identity)
  | .updateIdentity _, .plain =>
    if s.identity ≠ none then some (.ok ()) else some (.error ⟨.notFound, "no entry is found"⟩)
  | .createIdentity _, .plain => some (.ok ())
  | .deleteIdentity _, .plain => some (.ok ())
  | .generateAccessKeyID, .text t => some (.ok t)
  | .generateSecretAccessKey, .text t => some (.ok t)
  | .transport, .plain => some (.ok ())
  | .returned _, .plain => some ()
  | _, _ => none

theorem answers_of_answered {d : Deployment} {s : State} {a : Action} {y : Reply} {x : a.Value}
    (h : s.answered d a y = some x) : s.Answers d a x := by
  unfold answered at h
  split at h
  case h_1 => exact List.mem_of_getElem? h
  case h_2 n =>
    obtain ⟨c, hc, rfl⟩ := Option.map_eq_some_iff.mp h
    rintro c' heq
    cases heq
    exact List.mem_of_getElem? hc
  case h_6 =>
    cases h
    exact fun _ => finds_found _
  case h_7 =>
    split at h
    · rename_i hnone
      cases h
      exact fun _ => ⟨fun _ => hnone, nofun⟩
    · cases h
  case h_8 =>
    split at h
    · rename_i hsome
      exact fun _ _ => hsome
    · cases h
  case h_9 =>
    split at h
    · rename_i hsome
      exact fun _ _ => hsome
    · cases h
  case h_10 =>
    cases h
    exact fun _ _ => finds_found _
  case h_11 b =>
    split at h
    · rename_i o ho
      split at h
      · rename_i hcurrent
        cases h
        refine fun _ _ => ⟨o, ho, hcurrent.1, hcurrent.2, fun b' heq => ?_⟩
        exact (Except.ok.inj heq).symm
      · cases h
    · cases h
  case h_12 b =>
    split at h
    · rename_i o ho
      split at h
      · rename_i hversion
        exact fun _ _ => ⟨o, ho, hversion⟩
      · cases h
    · cases h
  case h_13 =>
    cases h
    exact fun _ => finds_found _
  case h_14 =>
    split at h
    · rename_i hsome
      exact fun _ _ => hsome
    · cases h
      exact fun _ hmade => absurd hmade (by decide)
  case h_16 =>
    cases h
    exact fun _ => nofun
  case h_19 =>
    cases h
    exact nofun
  all_goals trivial

def happen (A : Steps) [∀ e s, Decidable (A e s)] : Happening → State → Option State
  | .requestDeletion, s =>
    match s.access with
    | some o =>
      if A .requestDeletion s then
        some (s.setAccess
          { o with resourceVersion := o.resourceVersion + 1, deletionRequested := true })
      else none
    | none => none
  | .remove, s =>
    match s.access with
    | some o =>
      if o.deletionRequested = true ∧ o.finalizers = [] then some { s with access := none } else none
    | none => none

theorem proceeds_of_happen {d : Deployment} {A : Steps} [∀ e s, Decidable (A e s)]
    {s s' : State} {e : Happening} (h : s.happen A e = some s') : s.Proceeds d A s' := by
  cases e with
  | requestDeletion =>
    simp only [happen] at h
    split at h
    · rename_i o ho
      split at h
      · rename_i hallowed
        cases h
        exact .requestDeletion o ho hallowed
      · cases h
    · cases h
  | remove =>
    simp only [happen] at h
    split at h
    · rename_i o ho
      split at h
      · rename_i hgone
        cases h
        exact .remove o ho hgone.1 hgone.2
      · cases h
    · cases h

end State

def responder (d : Deployment) (A : Steps) [∀ e s, Decidable (A e s)] :
    Responder (system d A) Reply Happening where
  respond _ a s y := if A (.act a) s then (s.answered d a y).map fun x => (x, s.after d a x)
    else none
  happen e s := s.happen A e
  performs_of_respond := by
    intro i a s y x s' h
    split at h
    · rename_i hallowed
      obtain ⟨x', hx, heq⟩ := Option.map_eq_some_iff.mp h
      cases heq
      exact ⟨hallowed, State.answers_of_answered hx, rfl⟩
    · cases h
  env_of_happen := State.proceeds_of_happen

instance (e : Event) (s : State) : Decidable (SoleWriter e s) := by
  unfold SoleWriter
  split <;> infer_instance

instance (d : Deployment) (e : Event) (s : State) : Decidable (CarefulSteps d e s) := by
  unfold CarefulSteps
  split <;> infer_instance

def AnyStep : Steps := fun _ _ => True

instance (e : Event) (s : State) : Decidable (AnyStep e s) := .isTrue trivial

namespace Sample

def driverName : String := "seaweedfs.objectstorage.k8s.io"

def deployment : Deployment where
  listener := ⟨driverName, fun s t => decide (s = t), fun _ => 0, ⟨"http://s3:8333", "us-east-1"⟩⟩
  objectNamespace := "default"
  name := "photos"
  uid := "1"
  credentialsSecretName := "photos-s3"
  classes := [⟨driverName, .key, ∅⟩]

def access : BucketAccess :=
  ⟨"default", "photos", "1", 1, false, [], "photos", "seaweedfs", "photos-s3", "", "s3", false, ""⟩

def start : State := ⟨some access, [access], none, none⟩

def bucket : Bucket := ⟨"photos", "photos", true, [baBucketFinalizer]⟩

def asking : List Reply :=
  [.version 0, .bucketAccessClass 0, .bucketClaim ⟨"photos", true⟩, .bucket bucket, .plain, .plain]

def granting : List Reply := [.plain, .text "AK", .text "SK", .plain, .plain]

def marking : List Reply := [.plain, .plain, .bucket bucket, .plain, .plain, .plain]

def revoking : List Reply :=
  [.version 0, .plain, .plain, .plain, .plain, .plain, .plain, .plain, .plain]

theorem start_begins : Begins deployment start where
  access := ⟨access, by decide, rfl, rfl⟩
  identity _ := nofun

theorem start_created : Created deployment start where
  access := ⟨access, by decide, rfl, rfl, rfl⟩
  identity := rfl

end Sample

/-! ## Results -/

def returnsNil (c : Session) : Bool :=
  match c.current with
  | .ask (.returned (.ok ())) _ => true
  | _ => false

def ReturnsNil (c : Session) : Prop := ∃ next, c.current = .ask (.returned (.ok ())) next

theorem returnsNil_iff {c : Session} : returnsNil c = true ↔ ReturnsNil c := by
  rw [returnsNil, ReturnsNil]
  split
  · rename_i next hask
    exact iff_of_true rfl ⟨next, hask⟩
  · rename_i hask
    exact iff_of_false Bool.false_ne_true fun ⟨next, h⟩ => hask next h

theorem secret_holds_identity_key {d : Deployment} {s : State} {c : Session}
    (hclasses : ∀ k ∈ d.classes, d.listener.equalFold k.driverName d.listener.driverName = true)
    (hs : Begins d s) (hc : (adder d).Reachable s c) :
    (ReturnsNil c → KeysMatch c.shared.secret c.shared.identity) ∧
    ∀ c' secret, Relation.ReflTransGen (adder d).Step c c' → c.shared.secret = some secret →
      c'.shared.secret = some secret := by
  have hsound := (adder_follows hclasses).reachable hs.kept hc
  refine ⟨?_, fun c' secret hsteps => secret_kept hclasses hsound hsteps⟩
  rintro ⟨next, hask⟩
  exact hsound.guard hask

/-- The new key is in the Secret and in the identity. -/
theorem minted_key_matches : ∃ c, (adder Sample.deployment).Reachable Sample.start c ∧
    ReturnsNil c ∧ (c.shared.secret.bind Secret.keyPair = some ⟨"AK", "SK"⟩ ∧
    KeysMatch c.shared.secret c.shared.identity) := by
  have hrun : ((adder Sample.deployment).execute (responder Sample.deployment SoleWriter)
      [.call (), .act (Sample.asking ++ Sample.granting ++ Sample.marking)]
      ⟨.done ⟨⟩, Sample.start⟩).any (fun c => decide (returnsNil c = true ∧
        c.shared.secret.bind Secret.keyPair = some ⟨"AK", "SK"⟩)) = true := by
    decide
  obtain ⟨c, hreach, hcheck⟩ := Server.exists_reachable hrun
  obtain ⟨hreturns, hkey⟩ := of_decide_eq_true hcheck
  have hnil := returnsNil_iff.mp hreturns
  have hclasses : ∀ k ∈ Sample.deployment.classes, Sample.deployment.listener.equalFold k.driverName
      Sample.deployment.listener.driverName = true := by
    decide
  exact ⟨c, hreach, hnil, hkey,
    (secret_holds_identity_key hclasses Sample.start_begins hreach).1 hnil⟩

theorem identity_dies_with_access {d : Deployment} {s : State} {c : Session} (hs : Created d s)
    (hc : (sidecar d (CarefulSteps d) Kind id).Reachable s c) (hgone : c.shared.access = none) :
    c.shared.identity = none :=
  ((sidecar_follows d).reachable hs.covered hc).1.gone hgone

/-- An access that was granted is deleted. -/
theorem granted_access_revoked : ∃ c,
    (sidecar Sample.deployment (CarefulSteps Sample.deployment) Kind id).Reachable Sample.start c ∧
    c.shared.access = none ∧ c.shared.identity = none := by
  have hrun : ((sidecar Sample.deployment (CarefulSteps Sample.deployment) Kind id).execute
      (responder Sample.deployment (CarefulSteps Sample.deployment))
      [.call .add, .act (Sample.asking ++ Sample.granting ++ Sample.marking ++ [Reply.plain]),
        .happens .requestDeletion, .call .update, .act Sample.revoking, .happens .remove]
      ⟨.done ⟨⟩, Sample.start⟩).any (fun c => decide (c.shared.access = none)) = true := by
    decide
  obtain ⟨c, hreach, hcheck⟩ := Server.exists_reachable hrun
  have hgone := of_decide_eq_true hcheck
  exact ⟨c, hreach, hgone, identity_dies_with_access Sample.start_created hreach hgone⟩

/-- The sidecar crashes when the identity has been created, and the access is
deleted. -/
theorem identity_outlives_access : ∃ c,
    (sidecar Sample.deployment AnyStep Kind id).Reachable Sample.start c ∧
    Created Sample.deployment Sample.start ∧ c.shared.access = none ∧ c.shared.identity ≠ none := by
  have hrun : ((sidecar Sample.deployment AnyStep Kind id).execute
      (responder Sample.deployment AnyStep)
      [.call .add, .act (Sample.asking ++ Sample.granting), .restart, .happens .requestDeletion,
        .happens .remove] ⟨.done ⟨⟩, Sample.start⟩).any (fun c =>
          decide (c.shared.access = none ∧ c.shared.identity ≠ none)) = true := by
    decide
  obtain ⟨c, hreach, hcheck⟩ := Server.exists_reachable hrun
  exact ⟨c, hreach, Sample.start_created, of_decide_eq_true hcheck⟩

end ClusterState.Cosi
