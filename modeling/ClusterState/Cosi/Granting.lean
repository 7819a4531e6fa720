import ClusterState.Concurrency.Evaluation
import ClusterState.Cosi.Actions

/-! # What a grant stores

A grant adds the actions of its policy to the identity and leaves it one credential. What an
earlier grant with another policy allowed on the bucket stays allowed.
-/

namespace ClusterState.Cosi

open Concurrency

/-! ## The filer -/

/-- The identities at the filer, each in the file of its name. -/
structure Identities where
  files : AList (fun _ : String => IdentityFile)
  named : ∀ user identity, files.lookup user = some (.encoded identity) → identity.name = user

namespace Identities

def get (s : Identities) (user : String) : Option IdentityFile := s.files.lookup user

def put (s : Identities) (identity : Identity) : Identities where
  files := s.files.insert identity.name (.encoded identity)
  named user i h := by
    by_cases huser : user = identity.name
    · rw [huser, AList.lookup_insert] at h
      cases h
      exact huser.symm
    · rw [AList.lookup_insert_ne huser] at h
      exact s.named user i h

@[simp] theorem get_put (s : Identities) (identity : Identity) :
    (s.put identity).get identity.name = some (.encoded identity) := AList.lookup_insert _

end Identities

def accessKeyIDChars : List Char := "ABCDEFGHIJKLMNOPQRSTUVWXYZ0123456789".toList

def secretAccessKeyChars : List Char :=
  "ABCDEFGHIJKLMNOPQRSTUVWXYZabcdefghijklmnopqrstuvwxyz0123456789/+".toList

/-- `randomString`, from the bytes that were read. -/
def randomString (n : Nat) (charset : List Char) (bytes : Nat → Fin 256) : String :=
  String.ofList ((List.range n).map fun i => charset.getD ((bytes i).val % charset.length) 'A')

structure Outage extends Failures String where
  random : Nat → Except String (Nat → Fin 256)

structure Filer where
  identities : Identities
  calls : Nat

namespace Outage

variable (o : Outage)

def lookup (s : Filer) (user : String) : Except ApiError IdentityFile :=
  match o.failure s.calls, s.identities.get user with
  | some failure, _ => .error ⟨.other, failure.error⟩
  | none, some file => .ok file
  | none, none => .error ⟨.notFound, "no entry is found"⟩

def write (s : Filer) (identity : Identity) : Except ApiError Unit × Filer :=
  match o.failure s.calls with
  | some ⟨true, message⟩ => (.error ⟨.lost, message⟩, ⟨s.identities.put identity, s.calls + 1⟩)
  | some ⟨false, message⟩ => (.error ⟨.other, message⟩, ⟨s.identities, s.calls + 1⟩)
  | none => (.ok (), ⟨s.identities.put identity, s.calls + 1⟩)

def update (s : Filer) (identity : Identity) : Except ApiError Unit × Filer :=
  if (s.identities.get identity.name).isSome then o.write s identity
  else
    match o.failure s.calls with
    | some failure => (.error ⟨.other, failure.error⟩, ⟨s.identities, s.calls + 1⟩)
    | none => (.error ⟨.notFound, "no entry is found"⟩, ⟨s.identities, s.calls + 1⟩)

def respond : (a : Action) → Filer → Option (a.Value × Filer)
  | .lookupIdentity user, s => some (o.lookup s user, ⟨s.identities, s.calls + 1⟩)
  | .updateIdentity identity, s => some (o.update s identity)
  | .createIdentity identity, s => some (o.write s identity)
  | .generateAccessKeyID, s =>
    some ((o.random s.calls).map (randomString 20 accessKeyIDChars), ⟨s.identities, s.calls + 1⟩)
  | .generateSecretAccessKey, s =>
    some ((o.random s.calls).map (randomString 40 secretAccessKeyChars),
      ⟨s.identities, s.calls + 1⟩)
  | _, _ => none

structure Calm : Prop where
  failure : ∀ n, o.failure n = none
  random : ∀ n, ∃ bytes, o.random n = .ok bytes

end Outage

def grant (o : Outage) (p : ProvisionerServer) (req : GrantRequest) (s : Identities) :
    Option (Except Status GrantResponse) × Filer :=
  (driverGrantBucketAccess p req).eval o.respond ⟨s, 0⟩
/-! ## What a grant is to store -/

def Identities.actions (s : Identities) (user : String) : List String :=
  match s.get user with
  | some (.encoded identity) => identity.actions
  | _ => []

def GrantRequest.policy (req : GrantRequest) : String := req.parameters.get "accessPolicy"

/-- The identity has the one credential, on the bucket just the actions of the policy, and the
actions it had on others. -/
structure GrantRequest.Grants (req : GrantRequest) (s : Identities) (identity : Identity)
    (credential : Credential) : Prop where
  credentials : identity.credentials = [credential]
  exact : ∀ actions, actionsForPolicy req.policy = .ok actions →
    ∀ a, a ∈ actionsOn req.bucketId identity.actions ↔ a ∈ actions
  others : actionsOff req.bucketId identity.actions = actionsOff req.bucketId (s.actions req.name)

def GrantResponse.Returns (resp : GrantResponse) (credential : Credential) : Prop :=
  ∃ secrets, resp.credentials.lookup "s3" = some secrets ∧
    secrets.get "accessKeyID" = credential.accessKey ∧
    secrets.get "accessSecretKey" = credential.secretKey

/-- Whatever fails, the grant sets exactly its policy. -/
structure GrantRequest.SetsExactly (req : GrantRequest) (p : ProvisionerServer) (s : Identities) :
    Prop where
  succeeds : ∀ o resp, (grant o p req s).1 = some (.ok resp) → ∃ identity credential,
    (grant o p req s).2.identities.get req.name = some (.encoded identity) ∧
      req.Grants s identity credential ∧ resp.Returns credential
  repeats : ∀ o resp, (grant o p req s).1 = some (.ok resp) → ∀ o',
    (grant o' p req (grant o p req s).2.identities).2.identities.get req.name =
      (grant o p req s).2.identities.get req.name ∧
    ∀ resp', (grant o' p req (grant o p req s).2.identities).1 = some (.ok resp') → resp' = resp
  fails : ∀ o err, (grant o p req s).1 = some (.error err) →
    (grant o p req s).2.identities.get req.name = s.get req.name ∨
    ∃ identity credential, (grant o p req s).2.identities.get req.name = some (.encoded identity) ∧
      req.Grants s identity credential

/-- The user may do nothing on the bucket that the policy does not allow. -/
def GrantRequest.Within (req : GrantRequest) (s : Identities) : Prop :=
  ∀ actions, actionsForPolicy req.policy = .ok actions →
    ∀ a ∈ actionsOn req.bucketId (s.actions req.name), a ∈ actions

/-! ## Running a grant -/

def Credential.Usable (credential : Credential) : Prop :=
  credential.accessKey ≠ "" ∧ credential.secretKey ≠ ""

instance (credential : Credential) : Decidable credential.Usable :=
  inferInstanceAs (Decidable (_ ∧ _))

section Runs

variable {o : Outage} {s : Filer}

theorem randomString_ne_empty {n : Nat} {charset : List Char} {bytes : Nat → Fin 256} (hn : n ≠ 0) :
    randomString n charset bytes ≠ "" := by
  intro h
  have hlength := congrArg (fun t : String => t.toList.length) h
  rw [randomString] at hlength
  simp only [String.toList_ofList, List.length_map, List.length_range] at hlength
  exact hn hlength

def Identities.found (s : Identities) (user : String) : Option Identity :=
  match s.get user with
  | some (.encoded identity) => some identity
  | _ => none

theorem eval_readS3Identity (user : String) : ∃ x,
    (readS3Identity user).eval o.respond s = (some x, ⟨s.identities, s.calls + 1⟩) ∧
      (∀ found, x = .ok found → found = s.identities.found user) ∧
      (o.Calm → (∀ err, s.identities.get user ≠ some (.malformed err)) → ∃ found, x = .ok found) := by
  unfold readS3Identity
  change ∃ x, (Program.ask (Action.lookupIdentity user) _).eval o.respond s = _ ∧ _
  rw [Program.eval_ask (show o.respond (.lookupIdentity user) s =
    some (o.lookup s user, ⟨s.identities, s.calls + 1⟩) from rfl)]
  unfold Outage.lookup Identities.found
  cases hfailure : o.failure s.calls with
  | some failure =>
    exact ⟨_, rfl, nofun, fun hcalm _ => by rw [hcalm.failure] at hfailure; cases hfailure⟩
  | none =>
    rcases s.identities.get user with _ | (_ | err | identity)
    · exact ⟨_, rfl, fun _ h => (Except.ok.inj h).symm, fun _ _ => ⟨_, rfl⟩⟩
    · exact ⟨_, rfl, fun _ h => (Except.ok.inj h).symm, fun _ _ => ⟨_, rfl⟩⟩
    · exact ⟨_, rfl, nofun, fun _ h => absurd rfl (h err)⟩
    · exact ⟨_, rfl, fun _ h => (Except.ok.inj h).symm, fun _ _ => ⟨_, rfl⟩⟩

/-- The credential is the desired one, one of the identity, or a new one. -/
def Chosen (identity : Identity) (parameters : Parameters) (credential : Credential) : Prop :=
  match (desiredCredential parameters).or (firstUsableCredential identity) with
  | some chosen => credential = chosen
  | none => credential.Usable

theorem eval_newCredential : ∃ x n, newCredential.eval o.respond s = (some x, ⟨s.identities, n⟩) ∧
    (∀ credential, x = .ok credential → credential.Usable) ∧
    (o.Calm → ∃ credential, x = .ok credential) := by
  unfold newCredential
  change ∃ x n, (Program.ask Action.generateAccessKeyID _).eval o.respond s = _ ∧ _
  rw [Program.eval_ask (show o.respond .generateAccessKeyID s = some ((o.random s.calls).map
    (randomString 20 accessKeyIDChars), ⟨s.identities, s.calls + 1⟩) from rfl)]
  cases haccess : o.random s.calls with
  | error err =>
    refine ⟨_, _, rfl, nofun, fun hcalm => ?_⟩
    obtain ⟨bytes, hbytes⟩ := hcalm.random s.calls
    rw [haccess] at hbytes
    cases hbytes
  | ok bytes =>
    change ∃ x n, (Program.ask Action.generateSecretAccessKey _).eval o.respond
      ⟨s.identities, s.calls + 1⟩ = _ ∧ _
    rw [Program.eval_ask (show o.respond .generateSecretAccessKey ⟨s.identities, s.calls + 1⟩ =
      some ((o.random (s.calls + 1)).map (randomString 40 secretAccessKeyChars),
        ⟨s.identities, s.calls + 1 + 1⟩) from rfl)]
    cases hsecret : o.random (s.calls + 1) with
    | error err =>
      refine ⟨_, _, rfl, nofun, fun hcalm => ?_⟩
      obtain ⟨bytes', hbytes⟩ := hcalm.random (s.calls + 1)
      rw [hsecret] at hbytes
      cases hbytes
    | ok bytes' =>
      refine ⟨_, _, rfl, fun credential h => ?_, fun _ => ⟨_, rfl⟩⟩
      obtain rfl := Except.ok.inj h
      exact ⟨randomString_ne_empty (by decide), randomString_ne_empty (by decide)⟩

theorem eval_chooseCredential (identity : Identity) (parameters : Parameters) : ∃ x n,
    (chooseCredential identity parameters).eval o.respond s = (some x, ⟨s.identities, n⟩) ∧
      (∀ credential, x = .ok credential → Chosen identity parameters credential) ∧
      (o.Calm → ∃ credential, x = .ok credential) := by
  unfold chooseCredential Chosen
  cases (desiredCredential parameters).or (firstUsableCredential identity) with
  | some credential =>
    exact ⟨_, s.calls, rfl, fun _ h => (Except.ok.inj h).symm, fun _ => ⟨_, rfl⟩⟩
  | none => exact eval_newCredential

/-- What a write leaves behind when it ends like `x`: the identity, or nothing and then an error. -/
def Leaves {α : Type} (s : Filer) (identity : Identity) (x : Except Status α) (s' : Filer) : Prop :=
  s'.identities = s.identities.put identity ∨ s'.identities = s.identities ∧ ∃ err, x = .error err

theorem write_cases (identity : Identity) : ∃ x s', o.write s identity = (x, s') ∧
    (x = .ok () ∧ s'.identities = s.identities.put identity ∨
      ∃ err, x = .error err ∧ err.reason ≠ .notFound ∧ ¬o.Calm ∧
        (s'.identities = s.identities.put identity ∨ s'.identities = s.identities)) := by
  unfold Outage.write
  cases hfailure : o.failure s.calls with
  | none => exact ⟨_, _, rfl, .inl ⟨rfl, rfl⟩⟩
  | some failure =>
    have hnot : ¬o.Calm := fun hcalm => by
      rw [hcalm.failure] at hfailure
      cases hfailure
    obtain ⟨_ | _, message⟩ := failure
    · exact ⟨_, _, rfl, .inr ⟨_, rfl, nofun, hnot, .inr rfl⟩⟩
    · exact ⟨_, _, rfl, .inr ⟨_, rfl, nofun, hnot, .inl rfl⟩⟩

theorem Leaves.of_error {identity : Identity} {status : Status} {s' : Filer}
    (h : s'.identities = s.identities.put identity ∨ s'.identities = s.identities) :
    Leaves s identity (.error status : Except Status Unit) s' :=
  h.imp_right fun hsame => ⟨hsame, status, rfl⟩

def createEntry (identity : Identity) : Api Status Unit := do
  match ← act (.createIdentity identity) with
  | .ok () => pure ()
  | .error err => throw ⟨.internal, err.message⟩

theorem eval_createEntry (identity : Identity) : ∃ x s',
    (createEntry identity).eval o.respond s = (some x, s') ∧ Leaves s identity x s' ∧
      (o.Calm → x = .ok ()) := by
  obtain ⟨y, s', hwrite, hcases⟩ := @write_cases o s identity
  have hrespond : o.respond (.createIdentity identity) s = some (y, s') := congrArg some hwrite
  rcases hcases with ⟨rfl, hput⟩ | ⟨err, rfl, -, hnot, hleft⟩
  · exact ⟨.ok (), s', Program.eval_ask hrespond, .inl hput, fun _ => rfl⟩
  · exact ⟨.error ⟨.internal, err.message⟩, s', Program.eval_ask hrespond, .of_error hleft,
      fun hcalm => absurd hcalm hnot⟩

theorem eval_saveS3Identity (identity : Identity) : ∃ x s',
    (saveS3Identity identity).eval o.respond s = (some x, s') ∧ Leaves s identity x s' ∧
      (o.Calm → x = .ok ()) := by
  have heval : ∀ y s', o.update s identity = (y, s') →
      (saveS3Identity identity).eval o.respond s = Program.eval o.respond (match y with
        | .ok () => pure ()
        | .error err => if err.reason = .notFound then createEntry identity
          else throw ⟨.internal, err.message⟩ : Api Status Unit) s' := by
    intro y s' h
    have hrespond : o.respond (.updateIdentity identity) s = some (y, s') := congrArg some h
    cases y with
    | ok _ => exact Program.eval_ask hrespond
    | error err => exact Program.eval_ask hrespond
  by_cases hthere : (s.identities.get identity.name).isSome = true
  · obtain ⟨y, s', hwrite, hcases⟩ := @write_cases o s identity
    rw [heval y s' (by rw [Outage.update, if_pos hthere, hwrite])]
    rcases hcases with ⟨rfl, hput⟩ | ⟨err, rfl, hreason, hnot, hleft⟩
    · exact ⟨_, _, rfl, .inl hput, fun _ => rfl⟩
    · dsimp only
      rw [if_neg hreason]
      exact ⟨_, _, rfl, .of_error hleft, fun hcalm => absurd hcalm hnot⟩
  · cases hfailure : o.failure s.calls with
    | none =>
      rw [heval (.error ⟨.notFound, "no entry is found"⟩) ⟨s.identities, s.calls + 1⟩
        (by rw [Outage.update, if_neg hthere, hfailure])]
      exact @eval_createEntry o ⟨s.identities, s.calls + 1⟩ identity
    | some failure =>
      rw [heval (.error ⟨.other, failure.error⟩) ⟨s.identities, s.calls + 1⟩
        (by rw [Outage.update, if_neg hthere, hfailure])]
      refine ⟨_, _, rfl, .of_error (.inr rfl), fun hcalm => ?_⟩
      rw [hcalm.failure] at hfailure
      cases hfailure

def granted (req : GrantRequest) (s : Identities) (actions : List String)
    (credential : Credential) : Identity :=
  { (s.found req.name).getD ⟨req.name, [], []⟩ with
    credentials := [credential]
    actions := grantActions ((s.found req.name).getD ⟨req.name, [], []⟩) req.bucketId actions }

structure Ends (p : ProvisionerServer) (req : GrantRequest) (actions : List String)
    (o : Outage) (s : Filer) (x : Except Status GrantResponse) (s' : Filer) : Prop where
  stores : (s'.identities = s.identities ∧ ∃ err, x = .error err) ∨
    ∃ credential, Chosen ((s.identities.found req.name).getD ⟨req.name, [], []⟩) req.parameters
        credential ∧
      s'.identities = s.identities.put (granted req s.identities actions credential) ∧
      ∀ resp, x = .ok resp → resp = grantResponse p req.name credential
  calm : o.Calm → (∀ err, s.identities.get req.name ≠ some (.malformed err)) → ∃ resp, x = .ok resp

theorem eval_grant {p : ProvisionerServer} {req : GrantRequest} {actions : List String}
    (hname : req.name ≠ "") (hbucket : req.bucketId ≠ "")
    (hactions : actionsForPolicy req.policy = .ok actions) : ∃ x s',
    (driverGrantBucketAccess p req).eval o.respond s = (some x, s') ∧ Ends p req actions o s x s' := by
  unfold driverGrantBucketAccess
  rw [if_neg (not_or.mpr ⟨hname, hbucket⟩)]
  rw [show actionsForPolicy (req.parameters.get "accessPolicy") = .ok actions from hactions]
  obtain ⟨read, hread, hfound, hreadCalm⟩ := @eval_readS3Identity o s req.name
  cases read with
  | error err =>
    refine ⟨_, _, Program.eval_bind_error hread, .inl ⟨rfl, err, rfl⟩, fun hcalm hok => ?_⟩
    obtain ⟨found, hread⟩ := hreadCalm hcalm hok
    cases hread
  | ok found =>
    obtain rfl := hfound found rfl
    dsimp only
    rw [Program.eval_bind_ok hread]
    obtain ⟨choice, n, hchoice, hchosen, hchoiceCalm⟩ := @eval_chooseCredential o
      ⟨s.identities, s.calls + 1⟩ ((s.identities.found req.name).getD ⟨req.name, [], []⟩) req.parameters
    cases choice with
    | error err =>
      refine ⟨_, _, Program.eval_bind_error hchoice, .inl ⟨rfl, err, rfl⟩, fun hcalm _ => ?_⟩
      obtain ⟨credential, hchoice⟩ := hchoiceCalm hcalm
      cases hchoice
    | ok credential =>
      rw [Program.eval_bind_ok hchoice]
      obtain ⟨saved, s', hsaved, hleaves, hsavedCalm⟩ := @eval_saveS3Identity o ⟨s.identities, n⟩
        (granted req s.identities actions credential)
      change ∃ x s', (saveS3Identity (granted req s.identities actions credential) >>= _).eval
        o.respond ⟨s.identities, n⟩ = _ ∧ _
      cases saved with
      | error err =>
        refine ⟨_, _, Program.eval_bind_error hsaved, ?_, fun hcalm _ => ?_⟩
        · rcases hleaves with hput | hsame
          · exact .inr ⟨credential, hchosen credential rfl, hput, nofun⟩
          · exact .inl ⟨hsame.1, err, rfl⟩
        · cases hsavedCalm hcalm
      | ok _ =>
        refine ⟨_, _, Program.eval_bind_ok hsaved, ?_, fun _ _ => ⟨_, rfl⟩⟩
        rcases hleaves with hput | ⟨-, err, habsurd⟩
        · exact .inr ⟨credential, hchosen credential rfl, hput,
            fun _ h => (Except.ok.inj h).symm⟩
        · cases habsurd

end Runs

/-! ## The stored identity -/

section Stored

variable {o : Outage} {p : ProvisionerServer} {req : GrantRequest} {s : Identities}
  {actions : List String} {credential : Credential}

theorem name_granted : (granted req s actions credential).name = req.name := by
  change ((s.found req.name).getD ⟨req.name, [], []⟩).name = req.name
  unfold Identities.found
  split
  · rename_i identity hget
    exact s.named _ _ hget
  · rfl

theorem get_granted : (s.put (granted req s actions credential)).get req.name =
    some (.encoded (granted req s actions credential)) := by
  have hget := s.get_put (granted req s actions credential)
  rw [name_granted] at hget
  exact hget

theorem actions_found : ((s.found req.name).getD ⟨req.name, [], []⟩).actions = s.actions req.name := by
  unfold Identities.found Identities.actions
  split <;> rfl

theorem extends_granted : Extends req.bucketId actions (s.actions req.name)
    (granted req s actions credential).actions := by
  rw [← actions_found]
  exact extends_foldl actions _

theorem grants_granted (hactions : actionsForPolicy req.policy = .ok actions) (hwithin : req.Within s) :
    req.Grants s (granted req s actions credential) credential where
  credentials := rfl
  exact actions' hactions' a := by
    obtain rfl := Except.ok.inj (hactions.symm.trans hactions')
    rw [extends_granted.mem_actionsOn (policy_names hactions)]
    exact or_iff_right_of_imp (hwithin _ hactions a)
  others := extends_granted.actionsOff (policy_names hactions)

theorem usable_of_firstUsable {identity : Identity} (h : firstUsableCredential identity = some credential) :
    credential.Usable := by
  have hfound := @List.find?_some _ _ credential identity.credentials h
  exact of_decide_eq_true hfound

theorem firstUsable_granted (h : credential.Usable) :
    firstUsableCredential (granted req s actions credential) = some credential := by
  change [credential].find? _ = some credential
  rw [List.find?_cons_of_pos]
  exact decide_eq_true h

theorem Chosen.again {identity : Identity} {credential' : Credential}
    (h : Chosen identity req.parameters credential)
    (h' : Chosen (granted req s actions credential) req.parameters credential') :
    credential' = credential := by
  unfold Chosen at h h'
  cases hdesired : desiredCredential req.parameters with
  | some desired =>
    rw [hdesired] at h h'
    exact h'.trans h.symm
  | none =>
    rw [hdesired] at h h'
    have husable : credential.Usable := by
      cases hfirst : firstUsableCredential identity with
      | some first =>
        rw [hfirst] at h
        obtain rfl : credential = first := h
        exact usable_of_firstUsable hfirst
      | none =>
        rw [hfirst] at h
        exact h
    rw [firstUsable_granted husable] at h'
    exact h'

theorem granted_again : granted req (s.put (granted req s actions credential)) actions credential =
    granted req s actions credential := by
  have hfound : (s.put (granted req s actions credential)).found req.name =
      some (granted req s actions credential) := by
    rw [Identities.found, get_granted]
  rw [granted, hfound, Option.getD_some, grantActions_eq, foldl_of_granted extends_granted.granted]
  rfl

theorem returns_response : (grantResponse p req.name credential).Returns credential :=
  ⟨_, rfl, rfl, rfl⟩

theorem grant_cases (o : Outage) (p : ProvisionerServer) (req : GrantRequest) (s : Identities) :
    (∃ err, grant o p req s = (some (.error err), ⟨s, 0⟩)) ∨
    ∃ actions x s', (req.name ≠ "" ∧ req.bucketId ≠ "") ∧
      actionsForPolicy req.policy = .ok actions ∧ grant o p req s = (some x, s') ∧
      Ends p req actions o ⟨s, 0⟩ x s' := by
  by_cases hempty : req.name = "" ∨ req.bucketId = ""
  · refine .inl ⟨⟨.invalidArgument, "user or bucket empty"⟩, ?_⟩
    rw [grant, driverGrantBucketAccess, if_pos hempty]
    rfl
  · obtain ⟨hname, hbucket⟩ := not_or.mp hempty
    cases hactions : actionsForPolicy req.policy with
    | error err =>
      refine .inl ⟨⟨.invalidArgument, err⟩, ?_⟩
      rw [grant, driverGrantBucketAccess, if_neg hempty,
        show actionsForPolicy (req.parameters.get "accessPolicy") = .error err from hactions]
      rfl
    | ok actions =>
      obtain ⟨x, s', heval, hends⟩ := @eval_grant o ⟨s, 0⟩ p req actions hname hbucket hactions
      exact .inr ⟨actions, x, s', ⟨hname, hbucket⟩, rfl, heval, hends⟩

theorem grant_succeeds {resp : GrantResponse} (h : (grant o p req s).1 = some (.ok resp)) :
    ∃ actions credential, (req.name ≠ "" ∧ req.bucketId ≠ "") ∧
      actionsForPolicy req.policy = .ok actions ∧
      Chosen ((s.found req.name).getD ⟨req.name, [], []⟩) req.parameters credential ∧
      (grant o p req s).2.identities = s.put (granted req s actions credential) ∧
      resp = grantResponse p req.name credential := by
  rcases grant_cases o p req s with ⟨err, heq⟩ | ⟨actions, x, s', hnames, hactions, heq, hends⟩
  · rw [heq] at h
    cases h
  · rw [heq] at h ⊢
    obtain rfl : x = .ok resp := Option.some.inj h
    rcases hends.stores with ⟨-, err, habsurd⟩ | ⟨credential, hchosen, hput, hresp⟩
    · cases habsurd
    · exact ⟨actions, credential, hnames, hactions, hchosen, hput, hresp resp rfl⟩

theorem grant_again {resp : GrantResponse} (h : (grant o p req s).1 = some (.ok resp)) (o' : Outage) :
    (grant o' p req (grant o p req s).2.identities).2.identities.get req.name =
      (grant o p req s).2.identities.get req.name ∧
    ∀ resp', (grant o' p req (grant o p req s).2.identities).1 = some (.ok resp') → resp' = resp := by
  obtain ⟨actions, credential, -, hactions, hchosen, hput, rfl⟩ := grant_succeeds h
  rw [hput]
  have hfound : ((s.put (granted req s actions credential)).found req.name).getD
      ⟨req.name, [], []⟩ = granted req s actions credential := by
    rw [Identities.found, get_granted]
    rfl
  rcases grant_cases o' p req (s.put (granted req s actions credential)) with
    ⟨err, heq⟩ | ⟨actions', x, s', -, hactions', heq, hends⟩
  · rw [heq]
    exact ⟨rfl, nofun⟩
  · obtain rfl := Except.ok.inj (hactions.symm.trans hactions')
    rw [heq]
    rcases hends.stores with ⟨hsame, err, rfl⟩ | ⟨credential', hchosen', hput', hresp⟩
    · exact ⟨congrArg (·.get req.name) hsame, nofun⟩
    · rw [hfound] at hchosen'
      obtain rfl := hchosen.again hchosen'
      refine ⟨?_, fun resp' hresp' => hresp resp' (Option.some.inj hresp')⟩
      have hput'' : s'.identities = (s.put (granted req s actions credential')).put
          (granted req s actions credential') := by
        rw [hput', granted_again]
      have hget := Identities.get_put (s.put (granted req s actions credential'))
        (granted req s actions credential')
      rw [name_granted] at hget
      rw [hput'', hget, get_granted]

theorem within_of_setsExactly (h : req.SetsExactly p s) (hname : req.name ≠ "")
    (hbucket : req.bucketId ≠ "") : req.Within s := by
  intro actions hactions a ha
  have hok : ∀ err, s.get req.name ≠ some (.malformed err) := by
    intro err hget
    rw [Identities.actions, hget] at ha
    cases ha
  have hcalm : Outage.Calm ⟨.calm, fun _ => .ok fun _ => 0⟩ :=
    ⟨fun _ => rfl, fun _ => ⟨_, rfl⟩⟩
  obtain ⟨x, s', heval, hends⟩ := @eval_grant ⟨.calm, fun _ => .ok fun _ => 0⟩ ⟨s, 0⟩
    p req actions hname hbucket hactions
  obtain ⟨resp, rfl⟩ := hends.calm hcalm hok
  have hresp : (grant _ p req s).1 = some (.ok resp) := congrArg Prod.fst heval
  obtain ⟨identity, credential, hget, hgrants, -⟩ := h.succeeds _ resp hresp
  obtain ⟨actions', credential', -, hactions', -, hput, -⟩ := grant_succeeds hresp
  obtain rfl := Except.ok.inj (hactions.symm.trans hactions')
  rw [hput, get_granted] at hget
  cases hget
  apply (hgrants.exact actions hactions a).mp
  rw [extends_granted.mem_actionsOn (policy_names hactions)]
  exact .inl ha

/-- The grant sets exactly its policy just when the user may do nothing on the bucket that the
policy does not allow, or the request is refused for an empty name. -/
theorem grant_sets_exactly_iff (req : GrantRequest) (p : ProvisionerServer) (s : Identities) :
    req.SetsExactly p s ↔ (req.name ≠ "" → req.bucketId ≠ "" → req.Within s) := by
  constructor
  · exact within_of_setsExactly
  · intro h
    refine ⟨fun o resp hresp => ?_, fun o resp hresp o' => grant_again hresp o', fun o err herr => ?_⟩
    · obtain ⟨actions, credential, hnames, hactions, -, hput, rfl⟩ := grant_succeeds hresp
      refine ⟨granted req s actions credential, credential, ?_,
        grants_granted hactions (h hnames.1 hnames.2), returns_response⟩
      rw [hput, get_granted]
    · rcases grant_cases o p req s with ⟨err', heq⟩ | ⟨actions, x, s', hnames, hactions, heq, hends⟩
      · rw [heq]
        exact .inl rfl
      · rw [heq]
        rcases hends.stores with ⟨hsame, -⟩ | ⟨credential, -, hput, -⟩
        · exact .inl (congrArg (·.get req.name) hsame)
        · refine .inr ⟨granted req s actions credential, credential, ?_,
            grants_granted hactions (h hnames.1 hnames.2)⟩
          rw [hput]
          exact get_granted

end Stored

/-! ## From read-write to read-only -/

namespace Sample

def server : ProvisionerServer := ⟨"https://s3", "us-east-1"⟩

def request (policy : String) : GrantRequest :=
  ⟨"b", "u", .key, (∅ : Parameters).insert "accessPolicy" policy⟩

def noIdentities : Identities := ⟨∅, fun _ _ => nofun⟩

def writer : Identities :=
  noIdentities.put ⟨"u", [⟨"AK", "SK"⟩], ["Read:b", "Write:b", "List:b", "Tagging:b"]⟩

end Sample

theorem read_only_grant_keeps_write : ¬∀ (req : GrantRequest) (p : ProvisionerServer)
    (s : Identities), req.SetsExactly p s := by
  intro h
  have hwithin := within_of_setsExactly (h (Sample.request "readonly") Sample.server Sample.writer)
    (by decide) (by decide)
  have hmem := hwithin ["Read", "List"] rfl "Write" (by decide)
  revert hmem
  decide

end ClusterState.Cosi
