import ClusterState.Concurrency.Evaluation
import ClusterState.Recycler.Cycler

/-! # Looking candidates up

`ListCandidates` goes through the pods of the node and looks up the claim and the volume behind
each of their volumes. A lookup that fails for whatever reason counts as an absent object.
-/

namespace ClusterState.Recycler

open Concurrency

structure PVLookup where
  nodeName : String
  driver : String

/-- A pod as the API server lists it. Of a volume only the claim matters, if it has one. -/
structure ListedPod extends Pod where
  labels : List (String × String)
  deletionTimestamp : Option Nat
  volumes : List (Option String)

inductive GetError where
  | notFound
  | other (err : String)

inductive Query where
  | listPods
  /-- The name of the volume that a claim is bound to. -/
  | getClaim (key : Key)
  /-- The driver of a volume, if it is a CSI volume. -/
  | getVolume (name : String)

@[reducible] def Query.Value : Query → Type
  | .listPods => Except String (List ListedPod)
  | .getClaim _ => Except GetError String
  | .getVolume _ => Except GetError (Option String)

abbrev Lookups := Program Query Query.Value String

def query (q : Query) : Lookups q.Value := .ask q .done

namespace PVLookup

variable (l : PVLookup)

/-- `podUsesDriver` once a volume is looked up; `rest` goes on with the next claim. -/
def checkVolume (rest : Lookups Bool) : Except GetError (Option String) → Lookups Bool
  | .error _ => rest
  | .ok csi => if csi = some l.driver then pure true else rest

def checkClaim (rest : Lookups Bool) : Except GetError String → Lookups Bool
  | .error _ => rest
  | .ok volumeName => if volumeName = "" then rest else do
    l.checkVolume rest (← query (.getVolume volumeName))

def podUsesDriver (podNamespace : String) : List (Option String) → Lookups Bool
  | [] => pure false
  | none :: volumes => podUsesDriver podNamespace volumes
  | some claimName :: volumes => do
    l.checkClaim (podUsesDriver podNamespace volumes) (← query (.getClaim (podNamespace, claimName)))

def skips (p : ListedPod) : Bool :=
  p.deletionTimestamp.isSome || p.labels.lookup "component" = some "seaweedfs-mount" ||
    p.labels.lookup "app.kubernetes.io/name" = some "seaweedfs-consumer-recycler"

def collect : List ListedPod → Lookups (List ListedPod)
  | [] => pure []
  | p :: pods => do
    if skips p then collect pods
    else
      let uses ← l.podUsesDriver p.podNamespace p.volumes
      let out ← collect pods
      pure (if uses then p :: out else out)

def listCandidates : Lookups (List ListedPod) := do
  match ← query .listPods with
  | .error err => throw ("list pods: " ++ err)
  | .ok items => l.collect (items.filter fun p => p.nodeName = l.nodeName)

end PVLookup

/-! ## The cluster -/

structure Cluster where
  pods : List ListedPod
  /-- The volume names of the claims. -/
  claims : AList (fun _ : Key => String)
  /-- The CSI drivers of the volumes. -/
  volumes : AList (fun _ : String => Option String)

namespace Cluster

variable (c : Cluster) (errors : Nat → Option String) (l : PVLookup)

/-- The calls are numbered, and `errors` says which of them fail. -/
def respond : (q : Query) → Nat → Option (q.Value × Nat)
  | .listPods, n => some (match errors n with
    | some err => .error err
    | none => .ok c.pods, n + 1)
  | .getClaim key, n => some (match errors n, c.claims.lookup key with
    | some err, _ => .error (.other err)
    | none, some volumeName => .ok volumeName
    | none, none => .error .notFound, n + 1)
  | .getVolume name, n => some (match errors n, c.volumes.lookup name with
    | some err, _ => .error (.other err)
    | none, some csi => .ok csi
    | none, none => .error .notFound, n + 1)

def isBound (podNamespace : String) (claimName : String) : Bool :=
  match c.claims.lookup (podNamespace, claimName) with
  | none => false
  | some volumeName => volumeName ≠ "" && c.volumes.lookup volumeName = some (some l.driver)

def candidates : List ListedPod :=
  c.pods.filter fun p => p.nodeName = l.nodeName && !PVLookup.skips p &&
    p.volumes.any fun claim => claim.any (c.isBound l p.podNamespace)

def claimLookups (podNamespace claimName : String) : Nat :=
  match c.claims.lookup (podNamespace, claimName) with
  | none => 1
  | some volumeName => if volumeName = "" then 1 else 2

def podLookups (podNamespace : String) : List (Option String) → Nat
  | [] => 0
  | none :: volumes => podLookups podNamespace volumes
  | some claimName :: volumes => c.claimLookups podNamespace claimName +
    if c.isBound l podNamespace claimName then 0 else podLookups podNamespace volumes

def lookups : List ListedPod → Nat
  | [] => 0
  | p :: pods =>
    (if PVLookup.skips p then 0 else c.podLookups l p.podNamespace p.volumes) + lookups pods

/-- The lookups of an undisturbed call of `ListCandidates`. -/
def allLookups : Nat := c.lookups l (c.pods.filter fun p => p.nodeName = l.nodeName)

def listing : Option (Except String (List ListedPod)) × Nat :=
  l.listCandidates.eval (c.respond errors) 0

/-- A list that is returned is complete, and a lookup that fails makes the call fail. -/
structure CompleteOrFails : Prop where
  complete : ∀ out, (c.listing errors l).1 = some (.ok out) → out = c.candidates l
  fails : ∀ k, 0 < k → k < (c.listing errors l).2 → errors k ≠ none →
    ∃ err, (c.listing errors l).1 = some (.error err)

end Cluster

/-! ## Disturbed and undisturbed calls -/

namespace Cluster

section Tracks

variable {α β : Type} {c : Cluster} {errors : Nat → Option String} {l : PVLookup} {n count : Nat}

/-- Undisturbed, the program makes `count` calls from the `n`-th one on and returns `a`. When
one of these calls fails, the program still returns, and not before that call. -/
def Tracks (c : Cluster) (errors : Nat → Option String) (m : Lookups α) (n : Nat) (a : α)
    (count : Nat) : Prop :=
  ∃ x n', m.eval (c.respond errors) n = (some (.ok x), n') ∧ n ≤ n' ∧
    ((x = a ∧ n' = n + count ∧ ∀ k, n ≤ k → k < n + count → errors k = none) ∨
      ∃ k, n ≤ k ∧ k < n + count ∧ k < n' ∧ errors k ≠ none)

theorem Tracks.pure {a : α} : Tracks c errors (pure a) n a 0 :=
  ⟨a, n, rfl, le_rfl, .inl ⟨rfl, rfl, fun _ hle hlt => absurd hlt (Nat.not_lt.mpr hle)⟩⟩

theorem Tracks.bind {m : Lookups α} {f : α → Lookups β} {a : α} {b : β} {more : Nat}
    (hm : Tracks c errors m n a count) (hf : Tracks c errors (f a) (n + count) b more)
    (hany : ∀ x n', ∃ b' more', Tracks c errors (f x) n' b' more') :
    Tracks c errors (m >>= f) n b (count + more) := by
  obtain ⟨x, n', heval, hle, ⟨rfl, rfl, hclean⟩ | ⟨k, hk, hcount, hk', herror⟩⟩ := hm
  · obtain ⟨y, n'', heval', hle', hcases⟩ := hf
    refine ⟨y, n'', (Program.eval_bind_ok heval).trans heval', hle.trans hle', ?_⟩
    rcases hcases with ⟨rfl, rfl, hclean'⟩ | ⟨k, hk, hmore, hk', herror⟩
    · refine .inl ⟨rfl, by omega, fun k hk hlt => ?_⟩
      by_cases hfirst : k < n + count
      · exact hclean k hk hfirst
      · exact hclean' k (Nat.not_lt.mp hfirst) (by omega)
    · exact .inr ⟨k, by omega, by omega, hk', herror⟩
  · obtain ⟨b', more', y, n'', heval', hle', -⟩ := hany x n'
    exact ⟨y, n'', (Program.eval_bind_ok heval).trans heval', hle.trans hle',
      .inr ⟨k, hk, by omega, by omega, herror⟩⟩

theorem Tracks.query {q : Query} {x : q.Value}
    (hlist : ∃ y, c.respond errors q n = some (y, n + 1) ∧ (errors n = none → y = x)) :
    Tracks c errors (query q) n x 1 := by
  obtain ⟨y, hy, hx⟩ := hlist
  refine ⟨y, n + 1, Program.eval_ask hy, Nat.le_succ n, ?_⟩
  by_cases herror : errors n = none
  · refine .inl ⟨hx herror, rfl, fun k hk hlt => ?_⟩
    obtain rfl : k = n := by omega
    exact herror
  · exact .inr ⟨n, le_rfl, Nat.lt_succ_self n, Nat.lt_succ_self n, herror⟩

def claimAnswer (c : Cluster) (key : Key) : Except GetError String :=
  match c.claims.lookup key with
  | some volumeName => .ok volumeName
  | none => .error .notFound

def volumeAnswer (c : Cluster) (name : String) : Except GetError (Option String) :=
  match c.volumes.lookup name with
  | some csi => .ok csi
  | none => .error .notFound

theorem tracks_getClaim (key : Key) :
    Tracks c errors (Recycler.query (.getClaim key)) n (c.claimAnswer key) 1 := by
  refine .query ⟨_, rfl, fun hnone => ?_⟩
  rw [hnone, claimAnswer]
  cases c.claims.lookup key <;> rfl

theorem tracks_getVolume (name : String) :
    Tracks c errors (Recycler.query (.getVolume name)) n (c.volumeAnswer name) 1 := by
  refine .query ⟨_, rfl, fun hnone => ?_⟩
  rw [hnone, volumeAnswer]
  cases c.volumes.lookup name <;> rfl

section Claims

variable {rest : Lookups Bool} {b : Bool} {more : Nat}

theorem tracks_checkVolume (hrest : ∀ n, Tracks c errors rest n b more)
    (csi : Except GetError (Option String)) (n : Nat) :
    Tracks c errors (l.checkVolume rest csi) n (csi.toOption = some (some l.driver) || b)
      (if csi.toOption = some (some l.driver) then 0 else more) := by
  cases csi with
  | error err => exact hrest n
  | ok csi =>
    change Tracks c errors (if csi = some l.driver then Pure.pure true else rest) n
      (some csi = some (some l.driver) || b) (if some csi = some (some l.driver) then 0 else more)
    by_cases hcsi : csi = some l.driver
    · rw [if_pos hcsi, hcsi, decide_eq_true rfl, if_pos rfl, Bool.true_or]
      exact .pure
    · rw [if_neg hcsi, if_neg (Option.some_injective _ |>.ne hcsi),
        decide_eq_false (Option.some_injective _ |>.ne hcsi), Bool.false_or]
      exact hrest n

theorem toOption_volumeAnswer (name : String) :
    (c.volumeAnswer name).toOption = c.volumes.lookup name := by
  rw [volumeAnswer]
  cases c.volumes.lookup name <;> rfl

theorem tracks_claimed (hrest : ∀ n, Tracks c errors rest n b more) (podNamespace claimName : String)
    (n : Nat) :
    Tracks c errors (query (.getClaim (podNamespace, claimName)) >>= l.checkClaim rest) n
      (c.isBound l podNamespace claimName || b)
      (c.claimLookups podNamespace claimName +
        if c.isBound l podNamespace claimName then 0 else more) := by
  have hany : ∀ claim n', ∃ b' more', Tracks c errors (l.checkClaim rest claim) n' b' more' := by
    rintro (err | volumeName) n'
    · exact ⟨b, more, hrest n'⟩
    · rw [PVLookup.checkClaim]
      split
      · exact ⟨b, more, hrest n'⟩
      · exact ⟨_, _, (tracks_getVolume volumeName).bind (tracks_checkVolume hrest _ _)
          fun csi n'' => ⟨_, _, tracks_checkVolume hrest csi n''⟩⟩
  have hclaim := @tracks_getClaim c errors n (podNamespace, claimName)
  unfold claimAnswer at hclaim
  rw [isBound, claimLookups]
  cases hlookup : c.claims.lookup (podNamespace, claimName) with
  | none =>
    rw [hlookup] at hclaim
    exact hclaim.bind (hrest _) hany
  | some volumeName =>
    rw [hlookup] at hclaim
    by_cases hname : volumeName = ""
    · have hchecked : Tracks c errors (l.checkClaim rest (.ok volumeName)) (n + 1) b more := by
        rw [PVLookup.checkClaim, if_pos hname]
        exact hrest _
      simpa [hname] using hclaim.bind hchecked hany
    · have hchecked := (@tracks_getVolume c errors (n + 1) volumeName).bind
        (tracks_checkVolume (l := l) hrest (c.volumeAnswer volumeName) _)
        fun csi n' => ⟨_, _, tracks_checkVolume hrest csi n'⟩
      rw [toOption_volumeAnswer] at hchecked
      have hnext : l.checkClaim rest (.ok volumeName) =
          query (.getVolume volumeName) >>= l.checkVolume rest := by
        rw [PVLookup.checkClaim, if_neg hname]
      rw [← hnext] at hchecked
      simpa [hname, ← Nat.add_assoc] using hclaim.bind hchecked hany

end Claims

theorem tracks_podUsesDriver (podNamespace : String) (volumes : List (Option String)) (n : Nat) :
    Tracks c errors (l.podUsesDriver podNamespace volumes) n
      (volumes.any fun claim => claim.any (c.isBound l podNamespace))
      (c.podLookups l podNamespace volumes) := by
  induction volumes generalizing n with
  | nil => exact .pure
  | cons claim volumes ih =>
    cases claim with
    | none => exact ih n
    | some claimName =>
      exact tracks_claimed ih podNamespace claimName n

theorem tracks_collect (pods : List ListedPod) (n : Nat) :
    Tracks c errors (l.collect pods) n
      (pods.filter fun p => !PVLookup.skips p &&
        p.volumes.any fun claim => claim.any (c.isBound l p.podNamespace))
      (c.lookups l pods) := by
  induction pods generalizing n with
  | nil => exact .pure
  | cons p pods ih =>
    rw [PVLookup.collect, lookups, List.filter_cons]
    by_cases hskip : PVLookup.skips p = true
    · rw [if_pos hskip, if_pos hskip, hskip, Bool.not_true, Bool.false_and, Nat.zero_add]
      exact ih n
    · rw [if_neg hskip, if_neg hskip, eq_false_of_ne_true hskip, Bool.not_false, Bool.true_and]
      have hrest : ∀ (uses : Bool) n', Tracks c errors
          (l.collect pods >>= fun out => Pure.pure (if uses then p :: out else out)) n' _ _ :=
        fun uses n' => (ih n').bind .pure fun _ _ => ⟨_, _, .pure⟩
      exact (tracks_podUsesDriver p.podNamespace p.volumes n).bind (hrest _ _)
        fun uses n' => ⟨_, _, hrest uses n'⟩

end Tracks

/-! ## Complete lists -/

section Listing

variable {c : Cluster} {errors : Nat → Option String} {l : PVLookup}

theorem candidates_eq : c.candidates l = (c.pods.filter fun p => p.nodeName = l.nodeName).filter
    fun p => !PVLookup.skips p && p.volumes.any fun claim => claim.any (c.isBound l p.podNamespace) := by
  rw [candidates, List.filter_filter]
  refine List.filter_congr fun p _ => ?_
  rw [Bool.and_assoc, Bool.and_comm]

theorem listing_of_error {err : String} (h : errors 0 = some err) :
    c.listing errors l = (some (.error ("list pods: " ++ err)), 1) := by
  have hrespond : c.respond errors .listPods 0 = some (.error err, 1) := by
    rw [respond, h]
  exact Program.eval_ask hrespond

theorem listing_of_listed (h : errors 0 = none) : c.listing errors l =
    (l.collect (c.pods.filter fun p => p.nodeName = l.nodeName)).eval (c.respond errors) 1 := by
  have hrespond : c.respond errors .listPods 0 = some (.ok c.pods, 1) := by
    rw [respond, h]
  exact Program.eval_ask hrespond

/-- The list is complete or fails just when no lookup of an undisturbed call fails, or there is
no list at all. -/
theorem completeOrFails_iff (c : Cluster) (errors : Nat → Option String) (l : PVLookup) :
    c.CompleteOrFails errors l ↔
      errors 0 ≠ none ∨ ∀ k, 1 ≤ k → k ≤ c.allLookups l → errors k = none := by
  cases hlist : errors 0 with
  | some err =>
    refine iff_of_true ⟨?_, ?_⟩ (.inl nofun)
    · rw [listing_of_error hlist]
      exact nofun
    · rw [listing_of_error hlist]
      exact fun _ _ _ _ => ⟨_, rfl⟩
  | none =>
    have htracks := @tracks_collect c errors l (c.pods.filter fun p => p.nodeName = l.nodeName) 1
    rw [← candidates_eq] at htracks
    obtain ⟨out, n', heval, -, hcases⟩ := htracks
    rw [← listing_of_listed hlist] at heval
    constructor
    · intro h
      refine .inr fun k hk hcount => ?_
      rcases hcases with ⟨-, -, hclean⟩ | ⟨k', hk', -, hmade, herror⟩
      · exact hclean k hk (by rw [allLookups] at hcount; omega)
      · obtain ⟨err, herr⟩ := h.fails k' hk' (by rw [heval]; exact hmade) herror
        rw [heval] at herr
        cases herr
    · rintro (habsurd | hclean)
      · exact absurd rfl habsurd
      · rcases hcases with ⟨rfl, rfl, -⟩ | ⟨k, hk, hcount, -, herror⟩
        · refine ⟨fun out hout => ?_, fun k hk hmade herror => ?_⟩
          · rw [heval] at hout
            cases hout
            rfl
          · rw [heval] at hmade
            exact absurd (hclean k hk (by rw [allLookups]; omega)) herror
        · exact absurd (hclean k hk (by rw [allLookups]; omega)) herror

end Listing

end Cluster

/-! ## A claim that cannot be read -/

namespace Sample

def webPod : ListedPod := ⟨⟨"web", "web-0", "u1", "node-1", [], [], []⟩, [], none, [some "data"]⟩

def webLookup : PVLookup := ⟨"node-1", "seaweedfs-csi-driver"⟩

def webCluster : Cluster := ⟨[webPod], AList.singleton ("web", "data") "pv-1",
  AList.singleton "pv-1" (some "seaweedfs-csi-driver")⟩

def timeout (k : Nat) : Option String := if k = 1 then some "etcdserver: request timed out" else none

end Sample

theorem list_shortened_by_timeout :
    ¬∀ (c : Cluster) (errors : Nat → Option String) (l : PVLookup), c.CompleteOrFails errors l := by
  intro h
  have hcomplete := (h Sample.webCluster Sample.timeout Sample.webLookup).complete [] rfl
  have hlength := congrArg List.length hcomplete
  revert hlength
  decide

end ClusterState.Recycler
