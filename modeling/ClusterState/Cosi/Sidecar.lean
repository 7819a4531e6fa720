import ClusterState.Concurrency.Sessions
import ClusterState.Cosi.Listener

/-! # The sidecar and the API server

The work queue hands the events of one access to the listener one after the
other. An event carries some version of the access that the informer has seen.
-/

namespace ClusterState.Cosi

open Concurrency

structure Deployment where
  listener : BucketAccessListener
  objectNamespace : String
  name : String
  uid : String
  credentialsSecretName : String
  classes : List BucketAccessClass

namespace Deployment

def account (d : Deployment) : String := accountNamePrefix ++ d.uid

def Is (d : Deployment) (b : BucketAccess) : Prop :=
  b.objectNamespace = d.objectNamespace ∧ b.name = d.name ∧ b.uid = d.uid ∧
    b.credentialsSecretName = d.credentialsSecretName

instance (d : Deployment) (b : BucketAccess) : Decidable (d.Is b) := by
  unfold Is
  infer_instance

def IsSecret (d : Deployment) (objectNamespace name : String) : Prop :=
  objectNamespace = d.objectNamespace ∧ name = d.credentialsSecretName

instance (d : Deployment) (objectNamespace name : String) :
    Decidable (d.IsSecret objectNamespace name) := by
  unfold IsSecret
  infer_instance

end Deployment

/-- The access with the versions it has had, its Secret, and the identity file of
its account. -/
structure State where
  access : Option BucketAccess
  versions : List BucketAccess
  secret : Option Secret
  identity : Option IdentityFile

/-- The codes that neither gRPC nor the driver answers with do not occur. -/
def Status.Proper (status : Status) : Prop :=
  status.code ≠ .notFound ∧ status.code ≠ .alreadyExists

/-- What the API server makes of an update: the status is kept. -/
def BucketAccess.updated (current new : BucketAccess) : BucketAccess :=
  { new with
    resourceVersion := current.resourceVersion + 1
    deletionRequested := current.deletionRequested
    accessGranted := current.accessGranted
    accountID := current.accountID }

/-- What it makes of an update of the status: only the status changes. -/
def BucketAccess.statusUpdated (current new : BucketAccess) : BucketAccess :=
  { current with
    resourceVersion := current.resourceVersion + 1
    accessGranted := new.accessGranted
    accountID := new.accountID }

/-- The write has been made, whether or not its answer arrived. -/
def Made {α : Type} : Except ApiError α → Bool
  | .ok _ => true
  | .error err => err.reason = .lost

def Finds {α : Type} (there : Option α) : Except ApiError α → Prop
  | .ok a => there = some a
  | .error err => err.reason = .notFound → there = none

namespace State

def setAccess (s : State) (b : BucketAccess) : State :=
  { s with access := some b, versions := b :: s.versions }

/-- The update of a version that is current. No finalizer is added to an access
whose deletion has been requested. -/
def Updates (s : State) (new : BucketAccess) (x : Except ApiError BucketAccess) : Prop :=
  ∃ o, s.access = some o ∧ o.resourceVersion = new.resourceVersion ∧
    (o.deletionRequested = true → ∀ f ∈ new.finalizers, f ∈ o.finalizers) ∧
    ∀ b, x = .ok b → b = o.updated new

def Answers (d : Deployment) (s : State) : (a : Action) → a.Value → Prop
  | .event, x => x ∈ s.versions
  | .getBucketAccessClass _, x => ∀ bucketAccessClass, x = .ok bucketAccessClass →
      bucketAccessClass ∈ d.classes
  | .getSecret objectNamespace name, x => d.IsSecret objectNamespace name → Finds s.secret x
  | .createSecret secret, x => d.IsSecret secret.objectNamespace secret.name →
      (Made x = true → s.secret = none) ∧
      ∀ err, x = .error err → err.reason = .alreadyExists → s.secret ≠ none
  | .updateSecret secret, x => d.IsSecret secret.objectNamespace secret.name →
      Made x = true → s.secret ≠ none
  | .deleteSecret objectNamespace name, x => d.IsSecret objectNamespace name →
      Made x = true → s.secret ≠ none
  | .getBucketAccess objectNamespace name, x =>
      objectNamespace = d.objectNamespace → name = d.name → Finds s.access x
  | .updateBucketAccess b, x => d.Is b → Made x = true → s.Updates b x
  | .updateBucketAccessStatus b, x => d.Is b → Made x = true →
      ∃ o, s.access = some o ∧ o.resourceVersion = b.resourceVersion
  | .lookupIdentity user, x => user = d.account → Finds s.identity x
  | .updateIdentity identity, x => identity.name = d.account → Made x = true → s.identity ≠ none
  | .deleteIdentity user, x => user = d.account →
      ∀ err, x = .error err → err.reason = .notFound → s.identity = none
  | .transport, x => ∀ status, x = .error status → status.Proper
  | _, _ => True

def after (d : Deployment) : (a : Action) → a.Value → State → State
  | .createSecret secret, x, s =>
    if Made x = true ∧ d.IsSecret secret.objectNamespace secret.name then
      { s with secret := some secret }
    else s
  | .updateSecret secret, x, s =>
    if Made x = true ∧ d.IsSecret secret.objectNamespace secret.name then
      { s with secret := some secret }
    else s
  -- a Secret with finalizers stays until they are removed
  | .deleteSecret objectNamespace name, x, s =>
    if Made x = true ∧ d.IsSecret objectNamespace name then
      { s with secret := s.secret.filter fun secret => !secret.finalizers.isEmpty }
    else s
  | .updateBucketAccess b, x, s =>
    match s.access with
    | some o => if Made x = true ∧ d.Is b then s.setAccess (o.updated b) else s
    | none => s
  | .updateBucketAccessStatus b, x, s =>
    match s.access with
    | some o => if Made x = true ∧ d.Is b then s.setAccess (o.statusUpdated b) else s
    | none => s
  | .updateIdentity identity, x, s =>
    if Made x = true ∧ identity.name = d.account then
      { s with identity := some (.encoded identity) }
    else s
  | .createIdentity identity, x, s =>
    if Made x = true ∧ identity.name = d.account then
      { s with identity := some (.encoded identity) }
    else s
  | .deleteIdentity user, x, s =>
    if Made x = true ∧ user = d.account then { s with identity := none } else s
  | _, _, s => s

end State

/-- A step of the sidecar, the request to delete the access, or a change of the
Secret by somebody else. -/
inductive Event where
  | act (a : Action)
  | requestDeletion
  | changeSecret

abbrev Steps := Event → State → Prop

inductive State.Proceeds (d : Deployment) (A : Steps) (s : State) : State → Prop
  | requestDeletion (o : BucketAccess) (hcurrent : s.access = some o)
      (hallowed : A .requestDeletion s) :
      Proceeds d A s (s.setAccess
        { o with resourceVersion := o.resourceVersion + 1, deletionRequested := true })
  | remove (o : BucketAccess) (hcurrent : s.access = some o) (hrequested : o.deletionRequested = true)
      (hfinalizers : o.finalizers = []) : Proceeds d A s { s with access := none }
  /-- Somebody else changes the access, but neither its status nor the finalizer of
  the sidecar. -/
  | edit (o b : BucketAccess) (hcurrent : s.access = some o) (his : d.Is b)
      (hrequested : b.deletionRequested = o.deletionRequested)
      (hfinalizer : baFinalizer ∈ b.finalizers ↔ baFinalizer ∈ o.finalizers)
      (hgranted : b.accessGranted = o.accessGranted) (haccount : b.accountID = o.accountID) :
      Proceeds d A s (s.setAccess { b with resourceVersion := o.resourceVersion + 1 })
  | changeSecret (secret : Option Secret) (hallowed : A .changeSecret s) :
      Proceeds d A s { s with secret }

def system (d : Deployment) (A : Steps) : System PUnit Action Action.Value State where
  performs _ a s x s' := A (.act a) s ∧ s.Answers d a x ∧ s' = s.after d a x
  env := State.Proceeds d A

inductive Kind where
  | add
  | update

def handleEvent (d : Deployment) (kind : Kind) (bucketAccess : BucketAccess) : Api String Unit :=
  match kind with
  | .add => add d.listener bucketAccess
  | .update => update bucketAccess

/-! ## Names -/

structure State.Named (d : Deployment) (s : State) : Prop where
  access : ∀ o, s.access = some o → d.Is o
  versions : ∀ v ∈ s.versions, d.Is v

section Named

variable {d : Deployment} {s s' : State} {b : BucketAccess}

theorem State.Named.setAccess (h : s.Named d) (hb : d.Is b) : (s.setAccess b).Named d where
  access o ho := by
    cases ho
    exact hb
  versions v hv := by
    rcases List.mem_cons.mp hv with rfl | hv
    · exact hb
    · exact h.versions v hv

theorem State.Named.after (h : s.Named d) {a : Action} {x : a.Value} : (s.after d a x).Named d := by
  unfold State.after
  split
  case h_4 b x s =>
    split
    · rename_i o ho
      split
      · rename_i hmade
        exact h.setAccess hmade.2
      · exact h
    · exact h
  case h_5 b x s =>
    split
    · rename_i o ho
      split
      · exact h.setAccess (h.access o ho)
      · exact h
    · exact h
  case h_9 => exact h
  all_goals
    split
    · exact ⟨h.access, h.versions⟩
    · exact h

theorem State.Named.proceeds {A : Steps} (h : s.Named d) (hstep : s.Proceeds d A s') :
    s'.Named d := by
  cases hstep with
  | requestDeletion o hcurrent => exact h.setAccess (h.access o hcurrent)
  | remove o => exact ⟨nofun, h.versions⟩
  | edit o b hcurrent his => exact h.setAccess his
  | changeSecret secret => exact ⟨h.access, h.versions⟩

end Named

/-! ## Calls of the driver -/

section Rpc

variable {d : Deployment} {A : Steps} {D : Discipline PUnit Action Action.Value State} {s : State}
  {α : Type}

theorem meets_quiet (hsystem : D.toSystem = system d A) {ε : Type} {Q : α → State → Prop}
    {E : ε → State → Prop} {P : State → Prop} (hP : D.Stable ⟨⟩ P) {a : Action}
    (ha : D.quiet ⟨⟩ a) {next : a.Value → Api ε α} (hs : P s)
    (hnext : ∀ t x, D.inv t → P t → t.Answers d a x → P (t.after d a x) →
      D.Meets ⟨⟩ Q E (next x) (t.after d a x)) : D.Meets ⟨⟩ Q E (act a >>= next) s := by
  intro t hrely hinv
  have ht := hP.rely hrely hs
  have hguard := D.guard_of_quiet ⟨⟩ a t ha
  refine ⟨hguard, fun x t' hperforms => ?_⟩
  have ht' := hP t t' ⟨hinv, .inr ⟨⟨⟩, a, x, .inr ha, hguard, hperforms⟩⟩ ht
  rw [hsystem] at hperforms
  obtain ⟨-, hx, rfl⟩ := hperforms
  exact hnext t x hinv ht hx ht'

theorem meets_orThrow {β : Type} {x : Except ApiError α} {next : α → Api String β}
    {Q : β → State → Prop}
    (hnext : ∀ a, x = .ok a → D.Meets ⟨⟩ Q (fun _ _ => True) (next a) s) :
    D.Meets ⟨⟩ Q (fun _ _ => True) (orThrow x >>= next) s := by
  cases x with
  | ok a => exact hnext a rfl
  | error err => trivial

theorem meets_orWrap {β : Type} {message : String} {x : Except ApiError α}
    {next : α → Api String β} {Q : β → State → Prop}
    (hnext : ∀ a, x = .ok a → D.Meets ⟨⟩ Q (fun _ _ => True) (next a) s) :
    D.Meets ⟨⟩ Q (fun _ _ => True) (orWrap message x >>= next) s := by
  cases x with
  | ok a => exact hnext a rfl
  | error err => trivial

/-- A call of the driver returns what its handler returned, or a proper status. -/
theorem meets_rpc (hsystem : D.toSystem = system d A) (htransport : D.quiet ⟨⟩ .transport)
    {P : State → Prop} (hP : D.Stable ⟨⟩ P) {Q : α → State → Prop} (hQ : ∀ a, D.Stable ⟨⟩ (Q a))
    (hQP : ∀ a s, Q a s → P s) {handler : Api Status α} (hs : P s)
    (hhandler : ∀ t, P t → D.Meets ⟨⟩ Q (fun status t => status.Proper ∧ P t) handler t) :
    D.Meets ⟨⟩ (fun r t => (∃ a, r = .ok a ∧ Q a t) ∨
      ∃ status, r = .error status ∧ status.Proper ∧ P t) (fun _ _ => True) (rpc handler) s := by
  refine meets_quiet hsystem hP htransport hs fun t x _ _ hx ht => ?_
  cases x with
  | error status => exact .inr ⟨status, rfl, hx status rfl, ht⟩
  | ok _ =>
    refine (hhandler _ ht).outcome.bind fun result t₁ hresult => ?_
    rcases hresult with ⟨a, rfl, ha⟩ | ⟨status, rfl, hproper, hstatus⟩
    · refine meets_quiet hsystem (hQ a) htransport ha fun t₂ x _ _ hx ht₂ => ?_
      cases x with
      | error status => exact .inr ⟨status, rfl, hx status rfl, hQP a _ ht₂⟩
      | ok _ => exact .inl ⟨a, rfl, ht₂⟩
    · refine meets_quiet hsystem hP htransport hstatus fun t₂ x _ _ hx ht₂ => ?_
      cases x with
      | error status' => exact .inr ⟨status', rfl, hx status' rfl, ht₂⟩
      | ok _ => exact .inr ⟨status, rfl, hproper, ht₂⟩

end Rpc

/-! ## Events -/

def serve (d : Deployment) (kind : Kind) : Api String Unit := do
  let bucketAccess ← act .event
  let result ← (handleEvent d kind bucketAccess).attempt
  act (.returned result)

def sidecar (d : Deployment) (A : Steps) (Event : Type) (kind : Event → Kind) :
    Concurrency.Server Event Action Action.Value String State where
  system := system d A
  serve event := serve d (kind event)
  restart s := s

abbrev Session := Concurrency.Session Action Action.Value String State

end ClusterState.Cosi
