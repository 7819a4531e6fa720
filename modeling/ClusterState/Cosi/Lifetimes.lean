import ClusterState.Concurrency.Execution
import ClusterState.Cosi.Execution
import ClusterState.Cosi.Provisioners

/-! # What outlives what

In every run of any number of calls: claims stay with their buckets, ready claims have a
bucket, and a bucket stays at its driver until it has been given up.
-/

namespace ClusterState.Cosi.Provisioning

open Concurrency

/-! ## Runs -/

section Runs

variable {d : Deployment} {c c' : d.Calls} {l : BucketListener} {s t : Cluster} {known creatable : Bucket → Prop}

theorem Deployment.inv_of_reaches (h : d.system.Reaches (d.start .empty) c) : c.shared.Inv :=
  (Cluster.Inv.empty.sound.reaches h).1

def GivenUp (d : Deployment) (id : Stored) (s : Cluster) : Prop :=
  ∃ i, ∃ v ∈ s.buckets.versions, Doomed (d.listener i) v ∧ id = ⟨(d.listener i).driverName, v.bucketID⟩

theorem GivenUp.grows {id : Stored} (hgrows : s.Grows t) (h : GivenUp d id s) : GivenUp d id t := by
  obtain ⟨i, v, hv, h⟩ := h
  exact ⟨i, v, hgrows.buckets v hv, h⟩

theorem stored_of_performs {a : Action} {x : a.Value} (h : performs known l a s x t) :
    (∀ id ∈ s.stored, id ∈ t.stored) ∨
      ∃ bucketID, a = .driverDeleteBucket bucketID ∧ t = s.destroy ⟨l.driverName, bucketID⟩ := by
  cases a with
  | driverDeleteBucket bucketID =>
    obtain ⟨-, rfl | ⟨-, rfl⟩⟩ := h
    · exact .inr ⟨bucketID, rfl, rfl⟩
    · exact .inl fun _ hid => hid
  | event =>
    obtain ⟨-, -, rfl⟩ := h
    exact .inl fun _ hid => hid
  | driverCreateBucket name parameters =>
    obtain ⟨ids, -, rfl⟩ := h
    exact .inl fun _ hid => List.mem_append_right _ hid
  | getBucket name =>
    obtain ⟨-, rfl⟩ := h
    exact .inl fun _ hid => hid
  | getBucketClaim ref =>
    obtain ⟨-, rfl⟩ := h
    exact .inl fun _ hid => hid
  | updateBucket b =>
    simp only [performs] at h
    split at h
    · obtain ⟨o, -, -, -, rfl⟩ := h
      exact .inl fun _ hid => hid
    · exact .inl fun _ hid => h ▸ hid
  | updateBucketStatus b =>
    simp only [performs] at h
    split at h
    · obtain ⟨o, -, -, -, rfl⟩ := h
      exact .inl fun _ hid => hid
    · exact .inl fun _ hid => h ▸ hid
  | updateBucketClaim k =>
    simp only [performs] at h
    split at h
    · obtain ⟨o, -, -, rfl⟩ := h
      exact .inl fun _ hid => hid
    · exact .inl fun _ hid => h ▸ hid
  | updateBucketClaimStatus k =>
    simp only [performs] at h
    split at h
    · obtain ⟨o, -, -, rfl⟩ := h
      exact .inl fun _ hid => hid
    · exact .inl fun _ hid => h ▸ hid
  | listBucketAccesses objectNamespace => exact .inl fun _ hid => h ▸ hid
  | deleteBucketAccess objectNamespace name => exact .inl fun _ hid => h ▸ hid

theorem stored_of_proceeds (h : s.Proceeds creatable t) : t.stored = s.stored := by
  cases h <;> rfl

theorem mem_destroy {id id' : Stored} (hid : id ∈ s.stored) :
    id ∈ (s.destroy id').stored ∨ id = id' := by
  by_cases h : id = id'
  · exact .inr h
  · exact .inl (List.mem_filter.mpr ⟨hid, decide_eq_true h⟩)

end Runs

/-! ## Computing runs -/

/-- An answer of the surroundings. `plain` is what is there, and success. -/
inductive Reply where
  | plain
  | version (n : Nat)
  | created (id : String)
  | accesses (items : List BucketAccess)

inductive Happening where
  | createBucket (b : Bucket)
  | requestDeletion (name : String)
  | removeBucket (name : String)
  | createClaim (k : BucketClaim)

def conflict : ApiError := ⟨.conflict, "the object has been modified"⟩

namespace Cluster

def answerUpdate (s : Cluster) (l : BucketListener) (b : Bucket) : Except ApiError Unit × Cluster :=
  match s.buckets.current b.name with
  | some o =>
    if o.resourceVersion = b.resourceVersion ∧
        (o.deletionRequested = true → ∀ f ∈ b.finalizers, f ∈ o.finalizers) then
      (.ok (), s.putBucket l o b)
    else (.error conflict, s)
  | none => (.error conflict, s)

def answerUpdateStatus (s : Cluster) (b : Bucket) : Except ApiError Bucket × Cluster :=
  match s.buckets.current b.name with
  | some o =>
    if o.resourceVersion = b.resourceVersion then
      (.ok (s.buckets.next (o.statusUpdated b)),
        { s with buckets := s.buckets.put (o.statusUpdated b) })
    else (.error conflict, s)
  | none => (.error conflict, s)

def answerUpdateClaim (s : Cluster) (l : BucketListener) (k : BucketClaim) :
    Except ApiError Unit × Cluster :=
  match s.claims.current k.ref with
  | some o =>
    if o.resourceVersion = k.resourceVersion then (.ok (), s.putClaim l o k)
    else (.error conflict, s)
  | none => (.error conflict, s)

def answerUpdateClaimStatus (s : Cluster) (k : BucketClaim) : Except ApiError Unit × Cluster :=
  match s.claims.current k.ref with
  | some o =>
    if o.resourceVersion = k.resourceVersion then
      (.ok (), { s with claims := s.claims.put (o.statusUpdated k) })
    else (.error conflict, s)
  | none => (.error conflict, s)

def answer (known : Bucket → Prop) [DecidablePred known] (l : BucketListener) :
    (a : Action) → Cluster → Reply → Option (a.Value × Cluster)
  | .event, s, .version n => ((s.buckets.versions[n]?).filter fun v => known v).map fun v => (v, s)
  | .driverCreateBucket _ _, s, .created id => some ((some id, none), s.store [⟨l.driverName, id⟩])
  | .driverDeleteBucket id, s, .plain => some (none, s.destroy ⟨l.driverName, id⟩)
  | .getBucket name, s, .plain => some (found (s.buckets.current name), s)
  | .updateBucket b, s, .plain => some (s.answerUpdate l b)
  | .updateBucketStatus b, s, .plain => some (s.answerUpdateStatus b)
  | .getBucketClaim ref, s, .plain => some (found (s.claims.current ref), s)
  | .updateBucketClaim k, s, .plain => some (s.answerUpdateClaim l k)
  | .updateBucketClaimStatus k, s, .plain => some (s.answerUpdateClaimStatus k)
  | .listBucketAccesses _, s, .accesses items => some (.ok items, s)
  | .deleteBucketAccess _ _, s, .plain => some (.ok (), s)
  | _, _, _ => none

end Cluster

section Answers

variable {s t : Cluster} {l : BucketListener} {known : Bucket → Prop}

theorem made_ok {α : Type} {a : α} : Made (.ok a) = true := rfl

theorem not_made_conflict {α : Type} : ¬Made (.error conflict : Except ApiError α) = true :=
  Bool.false_ne_true

theorem performs_answerUpdate {b : Bucket} {x : Except ApiError Unit}
    (h : s.answerUpdate l b = (x, t)) : performs known l (.updateBucket b) s x t := by
  unfold Cluster.answerUpdate at h
  rw [performs]
  split at h
  · rename_i o ho
    split at h
    · rename_i hcurrent
      cases h
      rw [if_pos made_ok]
      exact ⟨o, ho, hcurrent.1, hcurrent.2, rfl⟩
    · cases h
      rw [if_neg not_made_conflict]
  · cases h
    rw [if_neg not_made_conflict]

theorem performs_answerUpdateStatus {b : Bucket} {x : Except ApiError Bucket}
    (h : s.answerUpdateStatus b = (x, t)) : performs known l (.updateBucketStatus b) s x t := by
  unfold Cluster.answerUpdateStatus at h
  rw [performs]
  split at h
  · rename_i o ho
    split at h
    · rename_i hversion
      cases h
      rw [if_pos made_ok]
      refine ⟨o, ho, hversion, fun updated hupdated => ?_, rfl⟩
      cases hupdated
      rfl
    · cases h
      rw [if_neg not_made_conflict]
  · cases h
    rw [if_neg not_made_conflict]

theorem performs_answerUpdateClaim {k : BucketClaim} {x : Except ApiError Unit}
    (h : s.answerUpdateClaim l k = (x, t)) : performs known l (.updateBucketClaim k) s x t := by
  unfold Cluster.answerUpdateClaim at h
  rw [performs]
  split at h
  · rename_i o ho
    split at h
    · rename_i hversion
      cases h
      rw [if_pos made_ok]
      exact ⟨o, ho, hversion, rfl⟩
    · cases h
      rw [if_neg not_made_conflict]
  · cases h
    rw [if_neg not_made_conflict]

theorem performs_answerUpdateClaimStatus {k : BucketClaim} {x : Except ApiError Unit}
    (h : s.answerUpdateClaimStatus k = (x, t)) :
    performs known l (.updateBucketClaimStatus k) s x t := by
  unfold Cluster.answerUpdateClaimStatus at h
  rw [performs]
  split at h
  · rename_i o ho
    split at h
    · rename_i hversion
      cases h
      rw [if_pos made_ok]
      exact ⟨o, ho, hversion, rfl⟩
    · cases h
      rw [if_neg not_made_conflict]
  · cases h
    rw [if_neg not_made_conflict]

theorem performs_of_answer [DecidablePred known] {a : Action} {y : Reply} {x : a.Value}
    (h : s.answer known l a y = some (x, t)) : performs known l a s x t := by
  unfold Cluster.answer at h
  split at h
  case h_1 =>
    obtain ⟨v, hv, heq⟩ := Option.map_eq_some_iff.mp h
    cases heq
    obtain ⟨hv, hknown⟩ := Option.filter_eq_some_iff.mp hv
    exact ⟨List.mem_of_getElem? hv, of_decide_eq_true hknown, rfl⟩
  case h_2 =>
    cases h
    refine ⟨_, fun id hid _ _ => ?_, rfl⟩
    cases hid
    exact List.mem_cons_self
  case h_3 =>
    cases h
    refine ⟨fun err herr => ?_, .inl rfl⟩
    cases herr
  case h_4 =>
    cases h
    exact ⟨finds_found _, rfl⟩
  case h_5 =>
    exact performs_answerUpdate (Option.some.inj h)
  case h_6 =>
    exact performs_answerUpdateStatus (Option.some.inj h)
  case h_7 =>
    cases h
    exact ⟨finds_found _, rfl⟩
  case h_8 =>
    exact performs_answerUpdateClaim (Option.some.inj h)
  case h_9 =>
    exact performs_answerUpdateClaimStatus (Option.some.inj h)
  case h_12 => cases h
  all_goals
    cases h
    rfl

end Answers

def Cluster.happen (creatable : Bucket → Prop) [DecidablePred creatable] :
    Happening → Cluster → Option Cluster
  | .createBucket b, s =>
    if s.buckets.current b.name = none ∧ creatable b ∧ b.deletionRequested = false ∧ b.bucketReady = false ∧
        bucketFinalizer ∉ b.finalizers then some { s with buckets := s.buckets.put b }
    else none
  | .requestDeletion name, s => (s.buckets.current name).map fun o =>
      { s with buckets := s.buckets.put { o with deletionRequested := true } }
  | .removeBucket name, s =>
    match s.buckets.current name with
    | some o =>
      if o.name = name ∧ o.deletionRequested = true ∧ o.finalizers = [] then
        some { s with buckets := s.buckets.remove o.name }
      else none
    | none => none
  | .createClaim k, s =>
    if s.claims.current k.ref = none ∧ (∀ v ∈ s.claims.versions, v.uid ≠ k.uid) ∧
        k.bucketName = "" ∧ k.bucketReady = false then some { s with claims := s.claims.put k }
    else none

theorem proceeds_of_happen {s t : Cluster} {creatable : Bucket → Prop} [DecidablePred creatable]
    {e : Happening} (h : s.happen creatable e = some t) : s.Proceeds creatable t := by
  cases e with
  | createBucket b =>
    simp only [Cluster.happen] at h
    split at h
    · rename_i hfree
      cases h
      exact .createBucket b hfree.1 hfree.2.1 hfree.2.2.1 hfree.2.2.2.1 hfree.2.2.2.2
    · cases h
  | requestDeletion name =>
    obtain ⟨o, ho, rfl⟩ := Option.map_eq_some_iff.mp h
    exact .requestDeletion o name ho
  | removeBucket name =>
    simp only [Cluster.happen] at h
    split at h
    · rename_i o ho
      split at h
      · rename_i hgone
        cases h
        obtain ⟨rfl, hrequested, hfinalizers⟩ := hgone
        exact .removeBucket o ho hrequested hfinalizers
      · cases h
    · cases h
  | createClaim k =>
    simp only [Cluster.happen] at h
    split at h
    · rename_i hfree
      cases h
      exact .createClaim k hfree.1 hfree.2.1 hfree.2.2.1 hfree.2.2.2
    · cases h

def responder (d : Deployment) [DecidablePred d.known] [DecidablePred d.creatable] :
    Responder d.system Reply Happening where
  respond i a s y := s.answer d.known (d.listener i) a y
  happen e s := s.happen d.creatable e
  performs_of_respond h := performs_of_answer h
  env_of_happen h := proceeds_of_happen h

namespace Sample

def listener : BucketListener := ⟨"seaweedfs", fun s t => decide (s = t)⟩

def kinds : Fin 3 → Kind
  | 0 => .add
  | 1 => .add
  | 2 => .update

def deployment : Deployment where
  Pid := Fin 3
  decidableEq := inferInstance
  listener _ := listener
  kind := kinds
  known _ := True
  creatable _ := True

instance : DecidablePred deployment.known := fun _ => .isTrue trivial

instance : DecidablePred deployment.creatable := fun _ => .isTrue trivial

def calm : Responder deployment.system Reply Happening := responder deployment

def ref : ObjectReference := ⟨"default", "photos"⟩

def claim : BucketClaim := ⟨ref, "1", 0, [bcFinalizer], "", false⟩

def bucket (name : String) : Bucket :=
  ⟨name, 0, false, [], "seaweedfs", some ref, .delete, "", ∅, false, ""⟩

def objects : List (Turn (Fin 3) Reply Happening) :=
  [.happens (.createClaim claim), .happens (.createBucket (bucket "a")),
    .happens (.createBucket (bucket "b"))]

def provisioning (id : String) (n : Nat) : List Reply := [.version n, .created id, .plain, .plain]

/-- Both read the claim before one of them writes it. -/
def contention : List (Turn (Fin 3) Reply Happening) :=
  [.act 0 (provisioning "a" 1 ++ [.plain]), .act 1 (provisioning "b" 1 ++ [.plain]),
    .act 0 [.plain, .plain, .plain], .act 1 [.plain]]

def boundClaim : BucketClaim := ⟨ref, "1", 2, [bcFinalizer], "a", true⟩

def deletion : List (Turn (Fin 3) Reply Happening) :=
  [.happens (.requestDeletion "a"), .act 2 [.version 0, .plain, .plain, .plain, .plain],
    .happens (.removeBucket "a")]

def freeClaim : BucketClaim := ⟨ref, "1", 3, [], "a", true⟩

def storedBucket : Stored := ⟨"seaweedfs", "a"⟩

theorem contended : ∃ c : deployment.Calls, deployment.system.Reaches (deployment.start .empty) c ∧
    storedBucket ∈ c.shared.stored ∧ ∃ c', deployment.system.Reaches c c' ∧
      deployment.system.Reaches (deployment.start .empty) c' ∧ storedBucket ∉ c'.shared.stored ∧
      (boundClaim ∈ c'.shared.claims.versions ∧ freeClaim ∈ c'.shared.claims.versions) ∧
      c'.shared.released.map (fun e => e.2.name) = ["a"] ∧
      c'.shared.releasedClaims.map (fun e => e.2.ref) = [ref] := by
  have hrun : (calm.execute (objects ++ contention) (deployment.start .empty)).any (fun c =>
      decide (storedBucket ∈ c.shared.stored) && (calm.execute deletion c).any (fun c' =>
        decide (storedBucket ∉ c'.shared.stored ∧ (boundClaim ∈ c'.shared.claims.versions ∧
          freeClaim ∈ c'.shared.claims.versions) ∧
            c'.shared.released.map (fun e => e.2.name) = ["a"] ∧
              c'.shared.releasedClaims.map (fun e => e.2.ref) = [ref]))) = true := by
    decide
  obtain ⟨c, hreach, hcheck⟩ := Responder.exists_reaches hrun
  rw [Bool.and_eq_true] at hcheck
  obtain ⟨c', hreach', hcheck'⟩ := Responder.exists_reaches hcheck.2
  exact ⟨c, hreach, of_decide_eq_true hcheck.1, c', hreach', hreach.trans hreach',
    of_decide_eq_true hcheck'⟩

end Sample

/-! ## Results -/

section Results

variable {d : Deployment} {c c' : d.Calls}

/-- A claim names one bucket for its whole life, whichever calls contend for it. -/
theorem claim_never_rebound (h : d.system.Reaches (d.start .empty) c) {k k' : BucketClaim}
    (hk : k ∈ c.shared.claims.versions) (hk' : k' ∈ c.shared.claims.versions) (huid : k.uid = k'.uid)
    (hbound : k.bucketName ≠ "") (hbound' : k'.bucketName ≠ "") : k.bucketName = k'.bucketName :=
  (d.inv_of_reaches h).claims.bound k hk k' hk' huid hbound hbound'

/-- Of two buckets for one claim, it stays with the first. -/
theorem claim_never_rebound_contended : ∃ c : Sample.deployment.Calls,
    Sample.deployment.system.Reaches (Sample.deployment.start .empty) c ∧
    Sample.boundClaim ∈ c.shared.claims.versions ∧ Sample.freeClaim ∈ c.shared.claims.versions ∧
    Sample.boundClaim.bucketName = Sample.freeClaim.bucketName := by
  obtain ⟨-, -, -, c, -, hreach, -, ⟨hbound, hfree⟩, -⟩ := Sample.contended
  exact ⟨c, hreach, hbound, hfree,
    claim_never_rebound hreach hbound hfree rfl (by decide) (by decide)⟩

/-- A claim is ready only for a bucket that is, and that a driver has made or that was there. -/
theorem ready_claim_backed (h : d.system.Reaches (d.start .empty) c) {k : BucketClaim}
    (hk : k ∈ c.shared.claims.versions) (hready : k.bucketReady = true) :
    ∃ v ∈ c.shared.buckets.versions, v.bucketClaim = some k.ref ∧ v.name = k.bucketName ∧
      v.bucketReady = true ∧ Backed c.shared v := by
  obtain ⟨v, hv, hclaim, hname, hready'⟩ := (d.inv_of_reaches h).provisioned k hk hready
  exact ⟨v, hv, hclaim, hname, hready', (d.inv_of_reaches h).backed v hv hready'⟩

theorem ready_claim_backed_contended : ∃ c : Sample.deployment.Calls,
    Sample.deployment.system.Reaches (Sample.deployment.start .empty) c ∧
    ∃ v ∈ c.shared.buckets.versions, v.bucketClaim = some Sample.ref ∧ v.name = "a" ∧
      v.bucketReady = true ∧ Backed c.shared v := by
  obtain ⟨-, -, -, c, -, hreach, -, ⟨hbound, -⟩, -⟩ := Sample.contended
  exact ⟨c, hreach, ready_claim_backed hreach hbound rfl⟩

/-- A bucket stays at its driver until its object has been given up with the policy to delete. -/
theorem stored_until_given_up (h : d.system.Reaches (d.start .empty) c) (h' : d.system.Reaches c c')
    {id : Stored} (hid : id ∈ c.shared.stored) : id ∈ c'.shared.stored ∨ GivenUp d id c'.shared := by
  have hsound : (rules d).Sound c := Cluster.Inv.empty.sound.reaches h
  refine hsound.keeps (R := fun s => id ∈ s.stored ∨ GivenUp d id s) ?_ ?_ (.inl hid) h'
  · rintro i a s x t hpermits hperforms (hid | hgiven)
    · rcases stored_of_performs hperforms with hstored | ⟨bucketID, rfl, rfl⟩
      · exact .inl (hstored id hid)
      · refine (mem_destroy hid).imp_right fun heq => ?_
        obtain ⟨v, hv, -, hdoomed, hsame⟩ := hpermits
        exact ⟨i, v, hv, hdoomed, by rw [heq, hsame]⟩
    · exact .inr (hgiven.grows (performs_grows hperforms))
  · rintro s t hproceeds (hid | hgiven)
    · rw [stored_of_proceeds hproceeds]
      exact .inl hid
    · exact .inr (hgiven.grows hproceeds.grows)

theorem stored_until_given_up_deleted : ∃ c : Sample.deployment.Calls,
    Sample.deployment.system.Reaches (Sample.deployment.start .empty) c ∧
    Sample.storedBucket ∉ c.shared.stored ∧ GivenUp Sample.deployment Sample.storedBucket c.shared := by
  obtain ⟨c, hreach, hstored, c', hreach', hreach₂, hgone, -⟩ := Sample.contended
  exact ⟨c', hreach₂, hgone, (stored_until_given_up hreach hreach' hstored).resolve_left hgone⟩

/-- A sidecar takes its finalizers away only when the deletion has been requested, and, where
the policy says so, only when its own driver has deleted the bucket. -/
theorem released_after_deletion (h : d.system.Reaches (d.start .empty) c) :
    (∀ e ∈ c.shared.released, Told c.shared e.1 e.2) ∧
      ∀ e ∈ c.shared.releasedClaims, ToldOf c.shared e.1 e.2 :=
  ⟨(d.inv_of_reaches h).released, (d.inv_of_reaches h).releasedClaims⟩

theorem released_after_deletion_told : ∃ c : Sample.deployment.Calls,
    Sample.deployment.system.Reaches (Sample.deployment.start .empty) c ∧
    c.shared.released.map (fun e => e.2.name) = ["a"] ∧
    c.shared.releasedClaims.map (fun e => e.2.ref) = [Sample.ref] ∧
    (∀ e ∈ c.shared.released, Told c.shared e.1 e.2) ∧
    ∀ e ∈ c.shared.releasedClaims, ToldOf c.shared e.1 e.2 := by
  obtain ⟨-, -, -, c, -, hreach, -, -, hreleased, hreleasedClaims⟩ := Sample.contended
  exact ⟨c, hreach, hreleased, hreleasedClaims, released_after_deletion hreach⟩

end Results

end ClusterState.Cosi.Provisioning
