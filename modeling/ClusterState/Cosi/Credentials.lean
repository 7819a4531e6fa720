import ClusterState.Cosi.Sidecar

/-! # One key for the Secret and the identity

As long as nobody else writes the Secret or the identity, an `Add` that returns
leaves the key of the Secret as the only credential of the identity, and a Secret
that is there never changes.
-/

namespace ClusterState.Cosi

open Concurrency

def Secret.keyPair (secret : Secret) : Option Credential :=
  match secret.bucketInfo with
  | .encoded info =>
    match info.s3 with
    | some s3 =>
      if s3.accessKeyID ≠ "" ∧ s3.accessSecretKey ≠ "" then
        some ⟨s3.accessKeyID, s3.accessSecretKey⟩
      else none
    | none => none
  | _ => none

def HoldsOnly (key : Credential) (identity : Option IdentityFile) : Prop :=
  ∃ i, identity = some (.encoded i) ∧ i.credentials = [key]

def KeysMatch (secret : Option Secret) (identity : Option IdentityFile) : Prop :=
  ∀ sec key, secret = some sec → sec.keyPair = some key → HoldsOnly key identity

def SoleWriter : Steps
  | .changeSecret, _ => False
  | _, _ => True

def Quiet : Action → Prop
  | .createSecret _ => False
  | .updateSecret _ => False
  | .deleteSecret _ _ => False
  | .updateIdentity _ => False
  | .createIdentity _ => False
  | .deleteIdentity _ => False
  | .returned _ => False
  | _ => True

section Discipline

variable {d : Deployment} {s s' : State} {a : Action} {x : a.Value}

theorem after_quiet (ha : Quiet a) :
    (s.after d a x).secret = s.secret ∧ (s.after d a x).identity = s.identity := by
  unfold State.after
  split
  case h_4 b x s =>
    split
    · split <;> exact ⟨rfl, rfl⟩
    · exact ⟨rfl, rfl⟩
  case h_5 b x s =>
    split
    · split <;> exact ⟨rfl, rfl⟩
    · exact ⟨rfl, rfl⟩
  case h_9 => exact ⟨rfl, rfl⟩
  all_goals exact ha.elim

theorem proceeds_soleWriter (h : s.Proceeds d SoleWriter s') :
    s'.secret = s.secret ∧ s'.identity = s.identity := by
  cases h with
  | changeSecret secret hallowed => exact hallowed.elim
  | _ => exact ⟨rfl, rfl⟩

structure Kept (d : Deployment) (s : State) : Prop where
  named : s.Named d
  identity : ∀ i, s.identity = some (.encoded i) → i.name = d.account

def Guard (d : Deployment) : Action → State → Prop
  | .updateSecret _, _ => False
  | .deleteSecret _ _, _ => False
  | .deleteIdentity _, _ => False
  | .updateIdentity i, _ => i.name = d.account
  | .createIdentity i, _ => i.name = d.account
  | .returned (.ok ()), s => KeysMatch s.secret s.identity
  | _, _ => True

theorem guard_of_quiet (ha : Quiet a) : Guard d a s := by
  cases a with
  | returned result => exact ha.elim
  | _ => trivial

theorem Kept.after (h : Kept d s) (hguard : Guard d a s) : Kept d (s.after d a x) := by
  refine ⟨h.named.after, fun i hi => ?_⟩
  by_cases ha : Quiet a
  · rw [(after_quiet ha).2] at hi
    exact h.identity i hi
  · cases a with
    | createSecret secret =>
      simp only [State.after] at hi
      split at hi <;> exact h.identity i hi
    | updateIdentity identity =>
      simp only [State.after] at hi
      split at hi
      · cases hi
        exact hguard
      · exact h.identity i hi
    | createIdentity identity =>
      simp only [State.after] at hi
      split at hi
      · cases hi
        exact hguard
      · exact h.identity i hi
    | returned result => exact h.identity i hi
    | updateSecret secret => exact hguard.elim
    | deleteSecret objectNamespace name => exact hguard.elim
    | deleteIdentity user => exact hguard.elim
    | _ => exact absurd trivial ha

def granting (d : Deployment) : Discipline PUnit Action Action.Value State where
  toSystem := system d SoleWriter
  inv := Kept d
  guard _ := Guard d
  quiet _ := Quiet
  guard_of_quiet _ _ _ := guard_of_quiet
  inv_performs := by
    rintro - a s x s' hinv hguard ⟨-, -, rfl⟩
    exact hinv.after hguard
  inv_env := by
    intro s s' hinv hstep
    refine ⟨hinv.named.proceeds hstep, fun i hi => ?_⟩
    rw [(proceeds_soleWriter hstep).2] at hi
    exact hinv.identity i hi

theorem stable_data (P : Option Secret → Option IdentityFile → Prop) :
    (granting d).Stable ⟨⟩ fun s => P s.secret s.identity := by
  rintro s s' ⟨-, hstep | ⟨j, a, x, hquiet, -, -, -, rfl⟩⟩ hs
  · rw [(proceeds_soleWriter hstep).1, (proceeds_soleWriter hstep).2]
    exact hs
  · have ha : Quiet a := hquiet.resolve_left fun h => h rfl
    rw [(after_quiet ha).1, (after_quiet ha).2]
    exact hs

end Discipline

section Programs

variable {d : Deployment} {α ε : Type} {s : State} {P : Option Secret → Option IdentityFile → Prop}
  {Q : α → State → Prop} {E : ε → State → Prop}

theorem meets_quiet_data {a : Action} (ha : Quiet a) {next : a.Value → Api ε α}
    (hs : P s.secret s.identity)
    (hnext : ∀ t x t', Kept d t → t.Answers d a x → t'.secret = t.secret →
      P t'.secret t'.identity → (granting d).Meets ⟨⟩ Q E (next x) t') :
    (granting d).Meets ⟨⟩ Q E (act a >>= next) s :=
  meets_quiet rfl (stable_data P) ha hs fun t x hinv _ hx ht' =>
    hnext t x _ hinv hx (after_quiet ha).1 ht'

theorem meets_only {m : Api ε α} (hm : m.Only Quiet) (hs : P s.secret s.identity) :
    (granting d).Meets ⟨⟩ (fun _ t => P t.secret t.identity) (fun _ t => P t.secret t.identity) m s :=
  Discipline.Meets.of_only (stable_data P) hm hs

end Programs

/-! ## The driver -/

section Driver

variable {d : Deployment} {s : State} {sv : Option Secret}

def Refused (sv : Option Secret) (status : Status) (t : State) : Prop :=
  status.Proper ∧ t.secret = sv

theorem meets_newCredential (hs : s.secret = sv) :
    (granting d).Meets ⟨⟩ (fun _ t => t.secret = sv) (Refused sv) newCredential s := by
  refine meets_quiet_data (a := .generateAccessKeyID) (P := fun secret _ => secret = sv) trivial hs
    fun t x t' _ _ _ ht => ?_
  cases x with
  | error err => exact ⟨⟨nofun, nofun⟩, ht⟩
  | ok accessKey =>
    refine meets_quiet_data (a := .generateSecretAccessKey) (P := fun secret _ => secret = sv)
      trivial ht fun t x t' _ _ _ ht => ?_
    cases x with
    | error err => exact ⟨⟨nofun, nofun⟩, ht⟩
    | ok secretKey => exact ht

theorem meets_chooseCredential {identity : Identity} {parameters : Parameters}
    (hs : s.secret = sv) :
    (granting d).Meets ⟨⟩ (fun credential t => t.secret = sv ∧
      ∀ key, desiredCredential parameters = some key → credential = key) (Refused sv)
      (chooseCredential identity parameters) s := by
  unfold chooseCredential
  cases hdesired : desiredCredential parameters with
  | some key =>
    refine ⟨hs, fun key' hkey => ?_⟩
    cases hkey
    rfl
  | none =>
    cases firstUsableCredential identity with
    | some credential => exact ⟨hs, nofun⟩
    | none => exact (meets_newCredential hs).mono (fun _ _ ht => ⟨ht, nofun⟩) fun _ _ h => h

theorem meets_readS3Identity (hs : s.secret = sv) :
    (granting d).Meets ⟨⟩ (fun found t => t.secret = sv ∧ ∀ i, found = some i → i.name = d.account)
      (Refused sv) (readS3Identity d.account) s := by
  refine meets_quiet_data (a := .lookupIdentity d.account) (P := fun secret _ => secret = sv) trivial
    hs fun t x t' hkept hx _ ht => ?_
  match x with
  | .error err =>
    change (granting d).Meets _ _ _ (if _ then _ else _) _
    split
    · exact ⟨ht, nofun⟩
    · exact ⟨⟨nofun, nofun⟩, ht⟩
  | .ok .empty => exact ⟨ht, nofun⟩
  | .ok (.malformed err) => exact ⟨⟨nofun, nofun⟩, ht⟩
  | .ok (.encoded identity) =>
    refine ⟨ht, fun i hi => ?_⟩
    cases hi
    exact hkept.identity identity (hx rfl)

theorem meets_saveS3Identity {identity : Identity} (hname : identity.name = d.account)
    (hs : s.secret = sv) :
    (granting d).Meets ⟨⟩ (fun _ t => t.secret = sv ∧ t.identity = some (.encoded identity))
      (Refused sv) (saveS3Identity identity) s := by
  have hstable := stable_data (d := d) fun secret _ => secret = sv
  intro t hrely hinv
  refine ⟨hname, fun x t' hperforms => ?_⟩
  obtain ⟨-, -, rfl⟩ := hperforms
  have ht : t.secret = sv := hstable.rely hrely hs
  have hsecret : (t.after d (.updateIdentity identity) x).secret = sv := by
    rw [State.after]
    split <;> exact ht
  cases x with
  | ok _ => exact ⟨hsecret, congrArg State.identity (if_pos ⟨rfl, hname⟩)⟩
  | error err =>
    change (granting d).Meets _ _ _ (if _ then _ else _) _
    split
    · intro t₁ hrely₁ _
      refine ⟨hname, fun x t₂ hperforms => ?_⟩
      obtain ⟨-, -, rfl⟩ := hperforms
      have ht₁ : t₁.secret = sv := hstable.rely hrely₁ hsecret
      have hsecret₁ : (t₁.after d (.createIdentity identity) x).secret = sv := by
        rw [State.after]
        split <;> exact ht₁
      cases x with
      | ok _ => exact ⟨hsecret₁, congrArg State.identity (if_pos ⟨rfl, hname⟩)⟩
      | error err => exact ⟨⟨nofun, nofun⟩, hsecret₁⟩
    · exact ⟨⟨nofun, nofun⟩, hsecret⟩

/-- A grant has been made: the identity holds one credential, the desired one if
there is one. -/
def Granted (p : ProvisionerServer) (req : GrantRequest) (sv : Option Secret)
    (rsp : GrantResponse) (secret : Option Secret) (identity : Option IdentityFile) : Prop :=
  secret = sv ∧ ∃ credential, rsp = grantResponse p req.name credential ∧
    HoldsOnly credential identity ∧
    ∀ key, desiredCredential req.parameters = some key → credential = key

theorem meets_grant {p : ProvisionerServer} {req : GrantRequest} (hname : req.name = d.account)
    (hs : s.secret = sv) :
    (granting d).Meets ⟨⟩ (fun rsp t => Granted p req sv rsp t.secret t.identity) (Refused sv)
      (driverGrantBucketAccess p req) s := by
  unfold driverGrantBucketAccess
  split
  · exact ⟨⟨nofun, nofun⟩, hs⟩
  split
  · exact ⟨⟨nofun, nofun⟩, hs⟩
  rw [hname]
  apply (meets_readS3Identity hs).bind
  rintro found t ⟨ht, hfound⟩
  apply (meets_chooseCredential ht).bind
  rintro credential t₁ ⟨ht₁, hdesired⟩
  have hidentity : (found.getD ⟨d.account, [], []⟩).name = d.account := by
    cases found with
    | none => rfl
    | some i => exact hfound i rfl
  apply (meets_saveS3Identity (by exact hidentity) ht₁).bind
  rintro - t₂ ⟨ht₂, hsaved⟩
  exact ⟨ht₂, credential, by rw [grantResponse, hname], ⟨_, hsaved, rfl⟩, hdesired⟩

end Driver

/-! ## The listener -/

theorem only_protectBucketAccess (bucketAccess : BucketAccess) :
    (protectBucketAccess bucketAccess).Only Quiet := by
  refine (only_act (by trivial)).bind fun x => (only_orThrow x).bind fun current => ?_
  split
  split
  · exact (only_act (by trivial)).bind (only_orWrap _)
  · trivial

theorem only_markBucketAccessGranted (bucketAccess : BucketAccess) (bucket : Bucket)
    (accountID : String) : (markBucketAccessGranted bucketAccess bucket accountID).Only Quiet := by
  unfold markBucketAccessGranted
  split
  · trivial
  refine (only_protectBucket (fun _ => by trivial) (fun _ => by trivial) bucket).bind fun _ =>
    (only_protectBucketAccess bucketAccess).bind fun current => ?_
  split
  · trivial
  · exact (only_act (by trivial)).bind (only_orWrap _)

section Listener

variable {d : Deployment} {s : State} {sv : Option Secret} {b : BucketAccess}

theorem meets_rpc_grant {p : ProvisionerServer} {req : GrantRequest} (hname : req.name = d.account)
    (hs : s.secret = sv) :
    (granting d).Meets ⟨⟩ (fun r t =>
      (∃ rsp, r = .ok rsp ∧ Granted p req sv rsp t.secret t.identity) ∨
      ∃ status, r = .error status ∧ status.Proper ∧ t.secret = sv) (fun _ _ => True)
      (rpc (driverGrantBucketAccess p req)) s :=
  meets_rpc rfl trivial (stable_data fun secret _ => secret = sv)
    (fun rsp => stable_data (Granted p req sv rsp)) (fun _ _ h => h.1) hs
    fun _ ht => meets_grant hname ht

theorem desiredCredential_existing {parameters params : Parameters} {secret : Secret}
    {key : Credential} (hparams : parametersWithExistingS3Credentials parameters secret = .ok params)
    (hkey : secret.keyPair = some key) : desiredCredential params = some key := by
  unfold parametersWithExistingS3Credentials at hparams
  unfold Secret.keyPair at hkey
  split at hkey
  · rename_i info hinfo
    split at hkey
    · rename_i s3 hs3
      split at hkey
      · rename_i hne
        cases hkey
        simp only [hinfo, hs3, if_pos hne, Except.ok.injEq] at hparams
        have haccess : params.get grantParamAccessKeyID = s3.accessKeyID := by
          rw [← hparams, Parameters.get, AList.lookup_insert_ne (by decide), AList.lookup_insert]
          rfl
        have hsecret : params.get grantParamAccessSecretKey = s3.accessSecretKey := by
          rw [← hparams, Parameters.get, AList.lookup_insert]
          rfl
        simp only [desiredCredential, haccess, hsecret]
        exact if_neg fun h => h.elim hne.1 hne.2
      · cases hkey
    · cases hkey
  · cases hkey

theorem keyPair_minted {l : BucketAccessListener} {p : ProvisionerServer} {user : String}
    {credential key : Credential} {bucketAccessClass : BucketAccessClass} {bucket : Bucket}
    {objectNamespace name : String} {finalizers : List String}
    (hkey : Secret.keyPair ⟨objectNamespace, name, finalizers, .encoded (bucketInfo l b
      bucketAccessClass bucket (grantResponse p user credential).credentials)⟩ = some key) :
    key = credential := by
  simp only [Secret.keyPair, bucketInfo, grantResponse, List.lookup, beq_self_eq_true,
    Option.map_some] at hkey
  split at hkey
  · cases hkey
    rfl
  · cases hkey

variable {l : BucketAccessListener} {bucketAccessClass : BucketAccessClass} {bucket : Bucket}

theorem meets_ensureGrant {secret : Secret} (hb : d.Is b) (hs : s.secret = some secret) :
    (granting d).Meets ⟨⟩ (fun _ t => KeysMatch t.secret t.identity) (fun _ _ => True)
      (ensureGrant l b bucketAccessClass bucket secret) s := by
  have hname : accountName b = d.account := congrArg _ hb.2.2.1
  unfold ensureGrant
  split
  · trivial
  · rename_i params hparams
    apply (meets_rpc_grant hname hs).bind
    rintro r t (⟨rsp, rfl, hsecret, credential, -, hholds, hdesired⟩ | ⟨status, rfl, hproper, -⟩)
    · have hmatch : KeysMatch t.secret t.identity := by
        intro sec key hsec hkey
        cases hsecret.symm.trans hsec
        rw [← hdesired key (desiredCredential_existing hparams hkey)]
        exact hholds
      exact (meets_only (only_markBucketAccessGranted _ _ _) hmatch).mono (fun _ _ h => h)
        fun _ _ _ => trivial
    · change (granting d).Meets _ _ _ (if _ then _ else _) _
      rw [if_neg hproper.2]
      trivial

theorem meets_mintCredentials (hb : d.Is b) (hs : s.secret = none) :
    (granting d).Meets ⟨⟩ (fun _ t => KeysMatch t.secret t.identity) (fun _ _ => True)
      (mintCredentials l b bucketAccessClass bucket) s := by
  have hname : accountName b = d.account := congrArg _ hb.2.2.1
  unfold mintCredentials
  apply (meets_rpc_grant hname hs).bind
  rintro r t (⟨rsp, rfl, hsecret, credential, rfl, hholds, -⟩ | ⟨status, rfl, hproper, -⟩)
  · change (granting d).Meets _ _ _ (if _ then _ else if _ then _ else _) _
    split
    · trivial
    split
    · trivial
    intro t₁ hrely _
    obtain ⟨hnone, hholds₁⟩ : t₁.secret = none ∧ HoldsOnly credential t₁.identity :=
      (stable_data fun secret identity => secret = none ∧ HoldsOnly credential identity).rely hrely
        ⟨hsecret, hholds⟩
    refine ⟨trivial, fun x t₂ hperforms => ?_⟩
    obtain ⟨-, hx, rfl⟩ := hperforms
    have his : d.IsSecret b.objectNamespace b.credentialsSecretName := ⟨hb.1, hb.2.2.2⟩
    cases x with
    | ok _ =>
      refine (meets_only (P := KeysMatch) (only_markBucketAccessGranted _ _ _) ?_).mono
        (fun _ _ h => h) fun _ _ _ => trivial
      rw [State.after, if_pos ⟨rfl, his⟩]
      intro sec key hsec hkey
      cases hsec
      rw [keyPair_minted hkey]
      exact hholds₁
    | error err =>
      change (granting d).Meets _ _ _ (if _ then _ else _) _
      split
      · rename_i hexists
        exact absurd hnone ((hx his).2 err rfl hexists)
      · trivial
  · change (granting d).Meets _ _ _ (if _ then _ else _) _
    rw [if_neg hproper.2]
    trivial

theorem meets_grantAccess (hb : d.Is b) :
    (granting d).Meets ⟨⟩ (fun _ t => KeysMatch t.secret t.identity) (fun _ _ => True)
      (grantAccess l b bucketAccessClass bucket) s := by
  have his : d.IsSecret b.objectNamespace b.credentialsSecretName := ⟨hb.1, hb.2.2.2⟩
  unfold grantAccess
  refine meets_quiet_data (a := .getSecret _ _) (P := fun _ _ => True) trivial trivial
    fun t x t' _ hx hsecret _ => ?_
  cases x with
  | ok secret => exact meets_ensureGrant hb (hsecret.trans (hx his))
  | error err =>
    change (granting d).Meets _ _ _ (if _ then _ else _) _
    split
    · rename_i hreason
      exact meets_mintCredentials hb (hsecret.trans (hx his hreason))
    · trivial

theorem meets_add (hclasses : ∀ c ∈ d.classes, l.equalFold c.driverName l.driverName = true)
    (hb : d.Is b) :
    (granting d).Meets ⟨⟩ (fun _ t => KeysMatch t.secret t.identity) (fun _ _ => True) (add l b)
      s := by
  unfold add
  split
  · trivial
  refine meets_quiet_data (a := .getBucketAccessClass _) (P := fun _ _ => True) trivial trivial
    fun _ x _ _ hx _ _ => meets_orWrap fun bucketAccessClass hclass => ?_
  rw [hclasses bucketAccessClass (hx bucketAccessClass hclass)]
  refine meets_quiet_data (a := .getBucketClaim _ _) (P := fun _ _ => True) trivial trivial
    fun _ x _ _ _ _ _ => meets_orWrap fun bucketClaim _ => ?_
  split
  · trivial
  split
  · trivial
  refine meets_quiet_data (a := .getBucket _) (P := fun _ _ => True) trivial trivial
    fun _ x _ _ _ _ _ => meets_orWrap fun bucket _ => ?_
  split
  · trivial
  · exact meets_grantAccess hb

end Listener

def adder (d : Deployment) : Server Unit Action Action.Value String State :=
  sidecar d SoleWriter Unit fun _ => .add

theorem adder_follows {d : Deployment} (hclasses : ∀ c ∈ d.classes,
    d.listener.equalFold c.driverName d.listener.driverName = true) :
    (adder d).Follows (granting d) where
  system_eq := rfl
  serves _ s _ := by
    refine meets_quiet_data (a := .event) (P := fun _ _ => True) trivial trivial
      fun t b t' hkept hx _ _ => ?_
    refine (meets_add hclasses (hkept.named.versions b hx)).attempt.bind fun result t₁ hresult => ?_
    intro t₂ hrely _
    refine ⟨?_, fun _ _ _ => trivial⟩
    rcases hresult with ⟨_, rfl, hmatch⟩ | ⟨err, rfl, -⟩
    · exact (stable_data KeysMatch).rely hrely hmatch
    · trivial
  restarts _ h := h

/-! ## Runs -/

/-- How it begins: an access, any Secret, and no identity file or one of the account. -/
structure Begins (d : Deployment) (s : State) : Prop where
  access : ∃ b, d.Is b ∧ s.access = some b ∧ s.versions = [b]
  identity : ∀ i, s.identity = some (.encoded i) → i.name = d.account

theorem Begins.kept {d : Deployment} {s : State} (h : Begins d s) : Kept d s := by
  obtain ⟨b, hb, haccess, hversions⟩ := h.access
  refine ⟨⟨fun o ho => ?_, fun v hv => ?_⟩, h.identity⟩
  · rw [haccess] at ho
    cases ho
    exact hb
  · rw [hversions] at hv
    rw [List.mem_singleton.mp hv]
    exact hb

theorem secret_kept {d : Deployment} {c c' : Session} {secret : Secret} (hclasses : ∀ k ∈ d.classes,
    d.listener.equalFold k.driverName d.listener.driverName = true)
    (hc : Server.Sound (granting d) c) (hsteps : Relation.ReflTransGen (adder d).Step c c')
    (hsecret : c.shared.secret = some secret) : c'.shared.secret = some secret := by
  induction hsteps with
  | refl => exact hsecret
  | @tail c₁ c₂ hreach hstep ih =>
    have hsound := (adder_follows hclasses).steps hc hreach
    cases hstep with
    | call => exact ih
    | restart => exact ih
    | env s henv => exact (proceeds_soleWriter henv).1.trans ih
    | act a next x s hask hperforms =>
      obtain ⟨-, hx, rfl⟩ := hperforms
      have hguard := hsound.guard hask
      by_cases ha : Quiet a
      · exact (after_quiet ha).1.trans ih
      · cases a with
        | createSecret new =>
          change (State.after d (.createSecret new) x c₁.shared).secret = _
          rw [State.after]
          split
          · rename_i hmade
            rw [(hx hmade.2).1 hmade.1] at ih
            cases ih
          · exact ih
        | updateIdentity identity =>
          change (State.after d (.updateIdentity identity) x c₁.shared).secret = _
          rw [State.after]
          split <;> exact ih
        | createIdentity identity =>
          change (State.after d (.createIdentity identity) x c₁.shared).secret = _
          rw [State.after]
          split <;> exact ih
        | returned result => exact ih
        | updateSecret secret => exact hguard.elim
        | deleteSecret objectNamespace name => exact hguard.elim
        | deleteIdentity user => exact hguard.elim
        | _ => exact absurd trivial ha

end ClusterState.Cosi
